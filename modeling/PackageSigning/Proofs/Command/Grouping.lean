import PackageSigning.Proofs.Command.Rules
import PackageSigning.Proofs.Command.Usage
import PackageSigning.Proofs.Options.WrittenScope

/-!
# Signers and providers among other options

Signers and providers are described one after the other, each kind with a separator of its own,
and in between stand options that are about neither. Hearing the words on things of one kind one
by one comes to splitting them at the separators (`Groups.all_heard`), and an option is heard by
the signers, by the providers or by neither of them (`SignOptions.hears_of_isEntry`). Hence the
signers and the providers are what their own options say
(`SignOptions.described_whatever_stands_between`), and what stands in between may be moved as long
as no switch takes what comes to stand behind it for its value.
-/

namespace PackageSigning

/-! ## Groups of words -/

/-- A word on things that are described one after the other. -/
inductive GroupWord (β : Type) where
  /-- The next one comes. -/
  | next
  /-- Something is said of the current one. -/
  | said (b : β)
  deriving DecidableEq, Repr

namespace GroupWord
variable {β : Type}

/-- Whether the next one comes. -/
def isNext : GroupWord β → Bool
  | next => true
  | said _ => false

/-- What is said of the current one. -/
def said? : GroupWord β → Option β
  | next => none
  | said b => some b

end GroupWord

namespace Groups
variable {α β : Type}

/-- The things described so far after one more word. -/
def hear (isEmpty : α → Bool) (empty : α) (put : α → β → α) (g : Groups α) :
    GroupWord β → Groups α
  | .next => g.next isEmpty empty
  | .said b => { g with current := put g.current b }

/-- What words describe: they are split where the next thing comes, the parts in which nothing is
said are dropped, and in each other part one word after the other is put in, so that the last one
counts. -/
def described (empty : α) (put : α → β → α) (words : List (GroupWord β)) : List α :=
  (((words.splitOnP GroupWord.isNext).map (·.filterMap GroupWord.said?)).filter
    (!·.isEmpty)).map (·.foldl put empty)

section
variable {isEmpty : α → Bool} {empty : α} {put : α → β → α}

theorem filterMap_said? (said : List β) :
    (said.map GroupWord.said).filterMap GroupWord.said? = said := by
  rw [List.filterMap_map]
  exact List.filterMap_some

theorem not_isNext_said {said : List β} : ∀ word ∈ said.map GroupWord.said, word.isNext = false := by
  intro word hword
  obtain ⟨b, -, rfl⟩ := List.mem_map.mp hword
  rfl

/-- A part without separators describes one thing, or nothing. -/
theorem described_said (said : List β) : described empty put (said.map GroupWord.said) =
    if said.isEmpty then [] else [said.foldl put empty] := by
  rw [described, List.splitOnP_eq_singleton not_isNext_said, List.map_singleton, filterMap_said?]
  cases said <;> rfl

theorem described_next (said : List β) (words : List (GroupWord β)) :
    described empty put (said.map GroupWord.said ++ GroupWord.next :: words) =
      described empty put (said.map GroupWord.said) ++ described empty put words := by
  unfold described
  rw [List.splitOnP_append_cons _ _ rfl, List.map_append, List.filter_append, List.map_append]

/-- Nothing has been said of a thing just when it is as empty as at the start. -/
theorem isEmpty_foldl (hempty : isEmpty empty = true) (hput : ∀ a b, isEmpty (put a b) = false)
    (said : List β) : isEmpty (said.foldl put empty) = said.isEmpty := by
  obtain rfl | ⟨front, b, rfl⟩ := said.eq_nil_or_concat
  · exact hempty
  · rw [List.concat_eq_append, List.foldl_append, List.foldl_cons, List.foldl_nil, hput]
    simp

/-- While words are heard, what is finished stays, and what has been said of the current thing is
as if it stood in front of the words to come. -/
theorem all_heardFrom (hempty : isEmpty empty = true) (hput : ∀ a b, isEmpty (put a b) = false)
    (words : List (GroupWord β)) (finished : List α) (said : List β) :
    all isEmpty (words.foldl (hear isEmpty empty put) ⟨finished, said.foldl put empty⟩) =
      finished ++ described empty put (said.map GroupWord.said ++ words) := by
  induction words generalizing finished said with
  | nil =>
    rw [List.foldl_nil, all, isEmpty_foldl hempty hput, List.append_nil, described_said]
    cases said.isEmpty
    · rfl
    · exact (List.append_nil _).symm
  | cons word words ih =>
    rw [List.foldl_cons]
    cases word with
    | said b =>
      have hput : hear isEmpty empty put ⟨finished, said.foldl put empty⟩ (.said b) =
          ⟨finished, (said ++ [b]).foldl put empty⟩ := by
        rw [hear, List.foldl_append]
        rfl
      rw [hput, ih, List.map_append, List.append_assoc]
      rfl
    | next =>
      rw [hear, next, isEmpty_foldl hempty hput, described_next, described_said]
      cases hsaid : said.isEmpty with
      | true =>
        obtain rfl := List.isEmpty_iff.mp hsaid
        exact ih finished []
      | false =>
        rw [if_neg nofun, if_neg nofun, ← List.append_assoc]
        exact ih (finished ++ [said.foldl put empty]) []

/-- Words that are heard one after the other describe what they describe when they are split at
the separators. -/
theorem all_heard (hempty : isEmpty empty = true) (hput : ∀ a b, isEmpty (put a b) = false)
    (words : List (GroupWord β)) :
    all isEmpty (words.foldl (hear isEmpty empty put) (start empty)) =
      described empty put words :=
  all_heardFrom hempty hput words [] []

end

end Groups

/-! ## Things that are laid out -/

namespace Laid
variable {ι σ : Type} {tokens : ι → List String} {Step : ι → List String → σ → σ → Prop}
  {is : List ι} {behind : List String} {s s' : σ}

/-- What a part of the state hears of each thing, it hears of all of them. -/
theorem foldl_filterMap {τ γ : Type} (part : σ → τ) (word : ι → Option γ) {hear : τ → γ → τ}
    (step : ∀ i behind s s', Step i behind s s' → part s' = (word i).toList.foldl hear (part s))
    (laid : Laid tokens Step is behind s s') :
    part s' = (is.filterMap word).foldl hear (part s) := by
  induction laid with
  | nil => rfl
  | @cons i _ _ s _ _ first _ ih =>
    rw [ih, step i _ s _ first]
    cases hword : word i with
    | none =>
      rw [List.filterMap_cons_none hword]
      rfl
    | some c =>
      rw [List.filterMap_cons_some hword]
      rfl

theorem exists_step (laid : Laid tokens Step is behind s s') {i : ι} (hi : i ∈ is) :
    ∃ behind s s', Step i behind s s' := by
  induction laid with
  | nil => cases hi
  | cons first _ ih =>
    cases hi with
    | head => exact ⟨_, _, _, first⟩
    | tail _ hi => exact ih hi

/-- Things that can stand anywhere can be laid out. -/
theorem exists_of_forall (h : ∀ i ∈ is, ∀ behind s, ∃ s', Step i behind s s')
    (behind : List String) (s : σ) : ∃ s', Laid tokens Step is behind s s' := by
  induction is generalizing s with
  | nil => exact ⟨s, .nil⟩
  | cons i is ih =>
    obtain ⟨t, first⟩ := h i List.mem_cons_self (is.flatMap tokens ++ behind) s
    obtain ⟨u, rest⟩ := ih (fun j hj => h j (List.mem_cons_of_mem i hj)) t
    exact ⟨u, .cons first rest⟩

end Laid

namespace OptionRule
variable {σ : Type} {rule : OptionRule σ} {value : WrittenValue} {behind : List String} {s s' : σ}

/-- Which values are accepted does not depend on what there is. -/
def Steady : OptionRule σ → Prop
  | text _ put => ∀ text s s' t, put text s = .ok s' → ∃ t', put text t = .ok t'
  | _ => True

theorem Steady.within {τ : Type} {rule : OptionRule τ} (h : rule.Steady) (part : σ → τ)
    (put : τ → σ → σ) : (rule.within part put).Steady := by
  cases rule with
  | text description f =>
    intro text s s' t stored
    dsimp only at stored ⊢
    cases hpart : f text (part s) with
    | error fault =>
      rw [hpart] at stored
      cases stored
    | ok a =>
      obtain ⟨b, hb⟩ := h text (part s) a (part t) hpart
      exact ⟨put b t, by rw [hb]; rfl⟩
  | number | switch | bare => exact trivial

/-- An option with its value is taken anywhere, but for a switch without one. -/
theorem Takes.anywhere (h : rule.Takes value behind s s') (steady : rule.Steady)
    (given : ∀ put, rule = .switch put → value ≠ .absent) (behind' : List String) (t : σ) :
    ∃ t', rule.Takes value behind' t t' := by
  cases h with
  | text hvalue notMark stored =>
    obtain ⟨t', ht⟩ := steady _ _ _ t stored
    exact ⟨t', .text hvalue notMark ht⟩
  | number hvalue notMark decimal => exact ⟨_, .number hvalue notMark decimal⟩
  | switch hvalue => exact ⟨_, .switch hvalue⟩
  | on => exact absurd rfl (given _ rfl)
  | bare apart => exact ⟨_, .bare apart⟩

end OptionRule

/-! ## The options of the signing command -/

namespace SignOptions

/-- What an option is about. -/
inductive Topic where
  | signers
  | providers
  | other
  deriving DecidableEq, Repr

/-- What the options with a name are about. -/
def topic (name : String) : Topic :=
  if name ∈ "next-signer" :: "v1-signer-name" :: KeySourceOption.all.map (·.option) then .signers
  else if name ∈ ["next-provider", "provider-class", "provider-arg", "provider-pos"] then .providers
  else .other

/-- What an option says of the signers: that the next one comes, or a setting of the current
one. -/
def signerWord? (o : WrittenOption) : Option (GroupWord (SignerField × String)) :=
  match KeySourceOption.find? o.name with
  | some option => do
    let stored ← (SignerSettings.stored option.field (← o.value.text?)).toOption
    return .said (option.field, stored)
  | none =>
    if o.name = "next-signer" then some .next
    else if o.name = "v1-signer-name" then o.value.text?.map fun text => .said (.v1Name, text)
    else none

/-- A setting of a provider. -/
inductive ProviderSetting where
  | className (text : String)
  | argument (text : String)
  | position (n : Int)
  deriving DecidableEq, Repr

/-- The provider with a setting. -/
def ProviderSetting.put (q : ProviderRequest) : ProviderSetting → ProviderRequest
  | className text => { q with className := some text }
  | argument text => { q with argument := some text }
  | position n => { q with position := some n }

/-- What an option says of the providers. -/
def providerWord? (o : WrittenOption) : Option (GroupWord ProviderSetting) :=
  match o.name with
  | "next-provider" => some .next
  | "provider-class" => o.value.text?.map fun text => .said (.className text)
  | "provider-arg" => o.value.text?.map fun text => .said (.argument text)
  | "provider-pos" => (o.value.text?.bind Text.integer?).map fun n => .said (.position n)
  | _ => none

/-- The signer with a setting. -/
def putSetting (s : SignerSettings) (setting : SignerField × String) : SignerSettings :=
  setting.1.set s setting.2

/-- The signers that options describe. -/
def signersOf (entries : List CommandEntry) : List SignerSettings :=
  Groups.described .empty putSetting (entries.filterMap (signerWord? ·.head))

/-- The providers that options describe. -/
def providersOf (entries : List CommandEntry) : List ProviderRequest :=
  Groups.described .empty ProviderSetting.put (entries.filterMap (providerWord? ·.head))

theorem isEmpty_putSetting (s : SignerSettings) (setting : SignerField × String) :
    (putSetting s setting).isEmpty = false := by
  have hget : setting.1.get (putSetting s setting) = some setting.2 := by
    rw [putSetting, ScopeOption.get_set, if_pos rfl]
  exact ScopeOption.isEmpty_of_get hget

theorem isEmpty_putProvider (q : ProviderRequest) (setting : ProviderSetting) :
    (setting.put q).isEmpty = false := by
  cases setting <;> simp [ProviderSetting.put, ProviderRequest.isEmpty]

/-! ## Reading them -/

variable {notary : Notary} {w : World} {name : String} {e : CommandEntry} {behind : List String}
  {o o' : SignOptions}

theorem providerRule?_steady {rule : OptionRule ProviderRequest}
    (h : ProviderRequest.rule? name = some rule) : rule.Steady := by
  unfold ProviderRequest.rule? at h
  split at h
  · cases h
    exact fun _ _ _ _ _ => ⟨_, rfl⟩
  · cases h
    exact fun _ _ _ _ _ => ⟨_, rfl⟩
  · cases h
    exact trivial
  · cases h

theorem keySourceRule_steady (option : KeySourceOption) : option.rule.Steady := by
  intro text s s' t accepted
  dsimp only at accepted ⊢
  cases hstored : SignerSettings.stored option.field text with
  | error fault =>
    rw [hstored] at accepted
    cases accepted
  | ok stored => exact ⟨_, rfl⟩

theorem lineageRule_steady (notary : Notary) (w : World) : (lineageRule notary w).Steady := by
  intro file s s' t accepted
  dsimp only at accepted ⊢
  cases hload : (w.run (Lineage.load notary file)).1 with
  | error fault =>
    rw [hload] at accepted
    cases accepted
  | ok l => exact ⟨_, rfl⟩

/-- The options of the command have no scopes, and accept their values whatever there is. -/
theorem exists_steady_of_rule? {rule : CommandRule SignOptions}
    (h : rule? notary w name = some rule) :
    ∃ plain : OptionRule SignOptions, rule = .plain plain ∧ plain.Steady := by
  unfold rule? at h
  split at h
  -- The lineage.
  case h_11 =>
    cases h
    exact ⟨_, rfl, lineageRule_steady notary w⟩
  -- What describes a signer or a provider.
  case h_15 =>
    unfold describeRule? at h
    split at h
    · next option _ =>
      cases h
      exact ⟨_, rfl, (keySourceRule_steady option).within _ _⟩
    · obtain ⟨rule, hrule, rfl⟩ := Option.map_eq_some_iff.mp h
      exact ⟨_, rfl, (providerRule?_steady hrule).within _ _⟩
  all_goals
    cases h
    refine ⟨_, rfl, ?_⟩
    first
      | exact trivial
      | exact fun _ _ _ _ _ => ⟨_, rfl⟩

theorem signerWord?_of_keySource {option : KeySourceOption} {value : WrittenValue}
    {text stored : String} (h : KeySourceOption.find? name = some option)
    (given : value.text? = some text)
    (hstored : SignerSettings.stored option.field text = .ok stored) (isLong : Bool) :
    signerWord? ⟨name, isLong, value⟩ = some (.said (option.field, stored)) := by
  simp [signerWord?, h, given, hstored, Except.toOption]

theorem providerWord?_of_keySource {option : KeySourceOption}
    (h : KeySourceOption.find? name = some option) (isLong : Bool) (value : WrittenValue) :
    providerWord? ⟨name, isLong, value⟩ = none := by
  unfold providerWord?
  split
  case h_5 => rfl
  all_goals
    next hname =>
      dsimp only at hname
      subst hname
      cases h

/-- What options that describe a signer or a provider are heard as. -/
theorem hears_of_describeRule? {rule : OptionRule SignOptions} {value : WrittenValue}
    (h : describeRule? name = some (.plain rule)) (takes : rule.Takes value behind o o')
    (isLong : Bool) :
    o'.signers = (signerWord? ⟨name, isLong, value⟩).toList.foldl
        (Groups.hear SignerSettings.isEmpty .empty putSetting) o.signers ∧
      o'.providers = (providerWord? ⟨name, isLong, value⟩).toList.foldl
        (Groups.hear ProviderRequest.isEmpty .empty ProviderSetting.put) o.providers := by
  unfold describeRule? at h
  split at h
  · next option hfind =>
    cases h
    cases takes with
    | @text _ _ _ text _ _ _ given notMark accepted =>
      dsimp only at accepted
      cases hstored : SignerSettings.stored option.field text with
      | error fault =>
        rw [hstored] at accepted
        cases accepted
      | ok stored =>
        rw [hstored] at accepted
        cases accepted
        rw [signerWord?_of_keySource hfind given hstored, providerWord?_of_keySource hfind]
        exact ⟨rfl, rfl⟩
  · obtain ⟨rule, hrule, hplain⟩ := Option.map_eq_some_iff.mp h
    unfold ProviderRequest.rule? at hrule
    split at hrule
    · cases hrule
      cases hplain
      cases takes with
      | text given notMark accepted =>
        cases accepted
        unfold providerWord?
        rw [given]
        exact ⟨rfl, rfl⟩
    · cases hrule
      cases hplain
      cases takes with
      | text given notMark accepted =>
        cases accepted
        unfold providerWord?
        rw [given]
        exact ⟨rfl, rfl⟩
    · cases hrule
      cases hplain
      cases takes with
      | number given notMark decimal =>
        unfold providerWord?
        rw [given, Option.bind_some, decimal]
        exact ⟨rfl, rfl⟩
    · cases hrule

/-- What the signers and the providers hear of an option. -/
theorem hears_of_isEntry (h : IsEntry (rule? notary w) e behind o o') :
    o'.signers = (signerWord? e.head).toList.foldl
        (Groups.hear SignerSettings.isEmpty .empty putSetting) o.signers ∧
      o'.providers = (providerWord? e.head).toList.foldl
        (Groups.hear ProviderRequest.isEmpty .empty ProviderSetting.put) o.providers := by
  obtain ⟨legible, rule, hrule, takes⟩ := h
  obtain ⟨rule, rfl, -⟩ := exists_steady_of_rule? hrule
  cases takes with
  | @plain _ head _ _ _ takes =>
    obtain ⟨name, isLong, value⟩ := head
    dsimp only at hrule takes ⊢
    unfold rule? at hrule
    split at hrule
    -- The basename of a signer, which no key source sets.
    case h_10 =>
      cases hrule
      cases takes with
      | text given notMark accepted =>
        cases accepted
        unfold signerWord?
        rw [given]
        exact ⟨rfl, rfl⟩
    -- The lineage, which is loaded before it is kept.
    case h_11 =>
      cases hrule
      cases takes with
      | @text _ _ _ file _ _ _ given notMark accepted =>
        dsimp only at accepted
        cases hload : (w.run (Lineage.load notary file)).1 with
        | error fault =>
          rw [hload] at accepted
          cases accepted
        | ok l =>
          rw [hload] at accepted
          cases accepted
          exact ⟨rfl, rfl⟩
    case h_15 => exact hears_of_describeRule? hrule takes isLong
    -- The others are separators, or about neither signers nor providers.
    all_goals
      cases hrule
      cases takes <;> first
        | exact ⟨rfl, rfl⟩
        | next accepted =>
          cases accepted
          exact ⟨rfl, rfl⟩

/-- The signers and the providers after options are what these options say of them. -/
theorem described_of_laid {entries : List CommandEntry}
    (laid : Laid CommandEntry.tokens (IsEntry (rule? notary w)) entries behind .initial o) :
    o.allSigners = signersOf entries ∧ o.allProviders = providersOf entries := by
  have hsigners := laid.foldl_filterMap SignOptions.signers (signerWord? ·.head)
    fun _ _ _ _ h => (hears_of_isEntry h).1
  have hproviders := laid.foldl_filterMap SignOptions.providers (providerWord? ·.head)
    fun _ _ _ _ h => (hears_of_isEntry h).2
  rw [allSigners, allProviders, hsigners, hproviders]
  exact ⟨Groups.all_heard rfl isEmpty_putSetting _, Groups.all_heard rfl (fun q setting =>
    isEmpty_putProvider q setting) _⟩

/-! ## Moving options -/

/-- Every switch has a value. -/
def SwitchesGiven (notary : Notary) (w : World) (entries : List CommandEntry) : Prop :=
  ∀ e ∈ entries, ∀ put, rule? notary w e.head.name = some (.plain (.switch put)) →
    e.head.value ≠ .absent

/-- The same options on each topic, in the same order. -/
def SameOnTopics (entries entries' : List CommandEntry) : Prop :=
  ∀ t : Topic, entries.filter (topic ·.head.name = t) = entries'.filter (topic ·.head.name = t)

/-- An option whose value is given can stand anywhere. -/
theorem isEntry_anywhere (h : IsEntry (rule? notary w) e behind o o')
    (given : ∀ put, rule? notary w e.head.name = some (.plain (.switch put)) →
      e.head.value ≠ .absent) (behind' : List String) (s : SignOptions) :
    ∃ s', IsEntry (rule? notary w) e behind' s s' := by
  obtain ⟨legible, rule, hrule, takes⟩ := h
  obtain ⟨rule, rfl, steady⟩ := exists_steady_of_rule? hrule
  cases takes with
  | plain takes =>
    obtain ⟨s', hs⟩ := takes.anywhere steady (fun put hput => given put (hput ▸ hrule)) behind' s
    exact ⟨s', legible, _, hrule, .plain hs⟩

theorem SameOnTopics.mem {entries entries' : List CommandEntry} (h : SameOnTopics entries entries')
    (he : e ∈ entries') : e ∈ entries := by
  have hfilter : e ∈ entries'.filter (topic ·.head.name = topic e.head.name) :=
    List.mem_filter.mpr ⟨he, by simp⟩
  rw [← h] at hfilter
  exact List.mem_of_mem_filter hfilter

/-- What is heard on one topic does not depend on what stands in between. -/
theorem SameOnTopics.filterMap_eq {γ : Type} {entries entries' : List CommandEntry}
    (h : SameOnTopics entries entries') {word : CommandEntry → Option γ} {t : Topic}
    (about : ∀ e, word e ≠ none → topic e.head.name = t) :
    entries.filterMap word = entries'.filterMap word := by
  have hfilter (l : List CommandEntry) :
      l.filterMap word = (l.filter (topic ·.head.name = t)).filterMap word := by
    rw [List.filterMap_filter]
    refine List.filterMap_congr fun e _ => ?_
    by_cases hword : word e = none
    · simp [hword]
    · simp [about e hword]
  rw [hfilter, h t, ← hfilter]

theorem topic_of_signerWord? {o : WrittenOption} (h : signerWord? o ≠ none) :
    topic o.name = .signers := by
  unfold signerWord? at h
  split at h
  · next option hfind =>
    have hname : option.option = o.name := by simpa using List.find?_some hfind
    have hmem := List.mem_map_of_mem (f := KeySourceOption.option) (List.mem_of_find?_eq_some hfind)
    rw [hname] at hmem
    exact if_pos (List.mem_cons_of_mem _ (List.mem_cons_of_mem _ hmem))
  · split at h
    · next hname =>
      rw [hname]
      rfl
    · split at h
      · next hname =>
        rw [hname]
        rfl
      · exact absurd rfl h

theorem topic_of_providerWord? {o : WrittenOption} (h : providerWord? o ≠ none) :
    topic o.name = .providers := by
  unfold providerWord? at h
  split at h
  case h_5 => exact absurd rfl h
  all_goals
    next hname =>
      rw [hname]
      rfl

theorem described_of_sameOnTopics {entries entries' : List CommandEntry}
    (h : SameOnTopics entries entries') :
    signersOf entries = signersOf entries' ∧ providersOf entries = providersOf entries' := by
  unfold signersOf providersOf
  rw [h.filterMap_eq fun e => topic_of_signerWord?, h.filterMap_eq fun e => topic_of_providerWord?]
  exact ⟨rfl, rfl⟩

/-- When the options of the signing command are read to their end, its tokens are options with
their values, and however they are taken apart so, the signers are what the options on signers
say, and the providers what those on providers say, whatever else stands in between. Where every
switch has a value, options may be moved across those on other topics: they are read to their end
again, and describe the same signers and the same providers. -/
theorem described_whatever_stands_between {tokens : List String} {last : Option String}
    {r : OptionReader} (h : (w.run (OptionAction.readAll (take notary) .initial
      (.start tokens))).1 = .ok ((o, last), r)) :
    (∃ u : CommandUsage, u.tokens = tokens ∧ u.IsRead (rule? notary w) .initial o) ∧
      ∀ u : CommandUsage, u.tokens = tokens → u.IsRead (rule? notary w) .initial o →
        o.allSigners = signersOf u.entries ∧ o.allProviders = providersOf u.entries ∧
        (SwitchesGiven notary w u.entries → ∀ entries, SameOnTopics u.entries entries →
          ∃ o' last' r', w.run (OptionAction.readAll (take notary) .initial
              (.start { u with entries := entries }.tokens)) = (.ok ((o', last'), r'), w) ∧
            o'.allSigners = o.allSigners ∧ o'.allProviders = o.allProviders) := by
  refine ⟨?_, fun u _ hread => ?_⟩
  · obtain ⟨u, htokens, hread, -⟩ := OptionAction.usage_of_readAll (understands notary w) h
    exact ⟨u, htokens, hread⟩
  · obtain ⟨hsigners, hproviders⟩ := described_of_laid hread.laid
    refine ⟨hsigners, hproviders, fun given entries hsame => ?_⟩
    -- Every option can stand where it has been moved to.
    have hmoved : ∀ e ∈ entries, ∀ behind s, ∃ s', IsEntry (rule? notary w) e behind s s' := by
      intro e he
      have hmem := hsame.mem he
      obtain ⟨behind, s, s', hentry⟩ := hread.laid.exists_step hmem
      exact isEntry_anywhere hentry (given e hmem)
    obtain ⟨o', laid⟩ : ∃ o', Laid CommandEntry.tokens (IsEntry (rule? notary w)) entries
        (markIf u.marked ++ u.left) .initial o' := Laid.exists_of_forall hmoved _ _
    have hread' : CommandUsage.IsRead (rule? notary w) { u with entries := entries } .initial o' :=
      ⟨laid, hread.ends⟩
    obtain ⟨last', r', hrun, -⟩ := OptionAction.readAll_of_usage (understands notary w) hread'
    obtain ⟨hsigners', hproviders'⟩ := described_of_laid laid
    obtain ⟨hsame₁, hsame₂⟩ := described_of_sameOnTopics hsame
    refine ⟨o', last', r', hrun, ?_, ?_⟩
    · rw [hsigners', ← hsame₁, hsigners]
    · rw [hproviders', ← hsame₂, hproviders]

/-- An option of the command, as written. -/
def sampleEntry (name : String) (value : WrittenValue) : CommandEntry :=
  ⟨⟨name, true, value⟩, [], false⟩

/-- Two signers, with what is said of a provider in between. -/
def sampleUsage : CommandUsage :=
  ⟨[sampleEntry "key" (.separate "a"), sampleEntry "provider-class" (.separate "P"),
    sampleEntry "v2-signing-enabled" (.inline "false"), sampleEntry "next-signer" .absent,
    sampleEntry "key" (.separate "b"), sampleEntry "provider-pos" (.inline "2"),
    sampleEntry "key" (.inline "c")], false, ["package"]⟩

/-- The same options, those on signers in front. -/
def sampleMoved : List CommandEntry :=
  [sampleEntry "key" (.separate "a"), sampleEntry "next-signer" .absent,
    sampleEntry "key" (.separate "b"), sampleEntry "key" (.inline "c"),
    sampleEntry "provider-class" (.separate "P"), sampleEntry "provider-pos" (.inline "2"),
    sampleEntry "v2-signing-enabled" (.inline "false")]

/-- What they come to. -/
def sampleOptions : SignOptions :=
  { schemes := { Schemes.all with v2 := false },
    signers := ⟨[{ keyFile := some "a" }], { keyFile := some "c" }⟩,
    providers := ⟨[], { className := some "P", position := some 2 }⟩ }

deriving instance DecidableEq for CommandEntry
deriving instance DecidableEq for SignOptions

theorem sample_read : sampleUsage.IsRead (rule? notary w) .initial sampleOptions where
  laid :=
    .cons ⟨.long (by decide) (.inl (by decide)), _, rfl, .plain (.text rfl nofun rfl)⟩ <|
    .cons ⟨.long (by decide) (.inl (by decide)), _, rfl, .plain (.text rfl nofun rfl)⟩ <|
    .cons ⟨.long (by decide) (.inl (by decide)), _, rfl, .plain (.switch rfl)⟩ <|
    .cons ⟨.long (by decide) (.inl (by decide)), _, rfl, .plain (.bare rfl)⟩ <|
    .cons ⟨.long (by decide) (.inl (by decide)), _, rfl, .plain (.text rfl nofun rfl)⟩ <|
    .cons ⟨.long (by decide) (.inl (by decide)), _, rfl, .plain (.number rfl nofun (by decide))⟩ <|
    .cons ⟨.long (by decide) (.inl (by decide)), _, rfl, .plain (.text rfl nofun rfl)⟩ .nil
  ends := .plain (by decide)

theorem sample_described_when_moved :
    (∃ last r, (LineageCommand.sampleWorld.run (OptionAction.readAll (take Sample.notary) .initial
        (.start sampleUsage.tokens))).1 = .ok ((sampleOptions, last), r)) ∧
      sampleOptions.allSigners = [{ keyFile := some "a" }, { keyFile := some "c" }] ∧
      signersOf sampleUsage.entries = sampleOptions.allSigners ∧
      ∃ o last r, LineageCommand.sampleWorld.run (OptionAction.readAll (take Sample.notary) .initial
          (.start { sampleUsage with entries := sampleMoved }.tokens)) =
          (.ok ((o, last), r), LineageCommand.sampleWorld) ∧
        o.allSigners = sampleOptions.allSigners ∧ o.allProviders = sampleOptions.allProviders := by
  have hread : (LineageCommand.sampleWorld.run (OptionAction.readAll (take Sample.notary) .initial
      (.start sampleUsage.tokens))).1 = .ok ((sampleOptions, some "--key"),
        ⟨sampleUsage.tokens, 10, 9, some "--key", none, false⟩) := by
    decide +kernel
  have given : SwitchesGiven Sample.notary LineageCommand.sampleWorld sampleUsage.entries := by
    intro e he put hrule habsent
    -- Only the separator has no value.
    have hbare : ∀ e ∈ sampleUsage.entries, e.head.value = .absent →
        e = sampleEntry "next-signer" .absent := by decide
    rw [hbare e he habsent] at hrule
    cases hrule
  have hsame : SameOnTopics sampleUsage.entries sampleMoved := by
    intro t
    cases t <;> decide +kernel
  obtain ⟨hsigners, -, hmoved⟩ :=
    (described_whatever_stands_between hread).2 sampleUsage rfl sample_read
  exact ⟨⟨_, _, hread⟩, by decide, hsigners.symm, hmoved given sampleMoved hsame⟩

end SignOptions
end PackageSigning
