import Mathlib.Data.List.Forall2
import Mathlib.Data.List.ProdSigma
import PackageSigning.Platform.Standard
import PackageSigning.Proofs.Password.Asking

/-!
# Which candidates passwords are expanded to

Every text is tried in every encoding: the candidates are the pairs of a text and an encoding that
can write it, text by text. A pair for which the encoding fails in any other way than that it
cannot write the text is an obstacle (`Candidate.obstacle?`), and with one obstacle all candidates
are lost (`Password.expansion_is_complete_iff`). What an encoding does with a text is up to the
platform, unless it is spelled out.
-/

namespace PackageSigning

open PackageSigning.Action

section General
variable [Platform]

/-- What an encoding comes to that writes no text at all. -/
def Text.Encoding.mishap? : Text.Encoding → Option Mishap
  | transform _ => some .unknownName
  | undefined => some .badEncoding
  | _ => none

namespace Candidate

/-- How an encoding fails for a text, if it does so in another way than that it cannot write it. -/
def obstacle? (text : String) (e : Text.Encoding) : Option Fault :=
  match e.encode text with
  | .ok _ | .error (.mishap .unencodable) => none
  | .error fault => some fault

/-- A text in an encoding that can write it. -/
def of? (text : String) (e : Text.Encoding) : Option Candidate :=
  match e.encode text with
  | .ok value => some ⟨text, e.name, value⟩
  | .error _ => none

theorem encode?_eq (text : String) (e : Text.Encoding) :
    encode? text e = (obstacle? text e).elim (.ok (of? text e)) .error := by
  unfold encode? obstacle? of?
  cases e.encode text with
  | ok value => rfl
  | error fault =>
    cases fault with
    | mishap m => cases m <;> rfl
    | _ => rfl

theorem inEncodings_eq (encodings : List Text.Encoding) (text : String) :
    inEncodings encodings text =
      (encodings.findSome? (obstacle? text)).elim (.ok (encodings.filterMap (of? text))) .error := by
  unfold inEncodings
  rw [mapM_eq_findSome? (encode?_eq text)]
  cases encodings.findSome? (obstacle? text) with
  | some fault => rfl
  | none => exact congrArg Except.ok (by simp [List.filterMap_map])

/-- The first obstacle in the way of texts in encodings. -/
def firstObstacle? (encodings : List Text.Encoding) (texts : List String) : Option Fault :=
  (texts ×ˢ encodings).findSome? fun p => obstacle? p.1 p.2

/-- The pairs of a text and an encoding that can write it. -/
def pairs (encodings : List Text.Encoding) (texts : List String) : List Candidate :=
  (texts ×ˢ encodings).filterMap fun p => of? p.1 p.2

theorem firstObstacle?_eq (encodings : List Text.Encoding) (texts : List String) :
    firstObstacle? encodings texts =
      texts.findSome? fun text => encodings.findSome? (obstacle? text) := by
  unfold firstObstacle?
  induction texts with
  | nil => rfl
  | cons text rest ih =>
    rw [List.product_cons, List.findSome?_append, List.findSome?_map, List.findSome?_cons, ih]
    show (encodings.findSome? (obstacle? text)).or _ = _
    cases encodings.findSome? (obstacle? text) <;> rfl

theorem pairs_eq (encodings : List Text.Encoding) (texts : List String) :
    pairs encodings texts = texts.flatMap fun text => encodings.filterMap (of? text) := by
  unfold pairs
  induction texts with
  | nil => rfl
  | cons text rest ih =>
    rw [List.product_cons, List.filterMap_append, List.filterMap_map, List.flatMap_cons, ih]
    rfl

/-- What is left out are the encodings that cannot write the text beside them, if there is no
obstacle. -/
theorem leftOut_of_clear {attempts : List (String × Text.Encoding)}
    (h : ∀ p ∈ attempts, obstacle? p.1 p.2 = none) :
    leftOut attempts = (attempts.filter fun p => (of? p.1 p.2).isNone).map (·.2) := by
  induction attempts with
  | nil => rfl
  | cons p rest ih =>
    obtain ⟨hp, hrest⟩ := List.forall_mem_cons.mp h
    rw [leftOut, encode?_eq, hp, ih hrest, List.filter_cons]
    cases hof : of? p.1 p.2 <;> rfl

/-- With one obstacle, all candidates are lost. -/
theorem all_eq (encodings : List Text.Encoding) (texts : List String) :
    all encodings texts =
      (firstObstacle? encodings texts).elim (.ok (pairs encodings texts)) .error := by
  unfold all
  rw [mapM_eq_findSome? (inEncodings_eq encodings), ← firstObstacle?_eq, pairs_eq,
    List.flatMap_def]
  cases firstObstacle? encodings texts <;> rfl

theorem firstObstacle?_eq_none_iff {encodings : List Text.Encoding} {texts : List String} :
    firstObstacle? encodings texts = none ↔
      ∀ text ∈ texts, ∀ e ∈ encodings, obstacle? text e = none := by
  simp only [firstObstacle?, List.findSome?_eq_none_iff, Prod.forall, List.mem_product]
  exact ⟨fun h text ht e he => h text e ⟨ht, he⟩, fun h text e hp => h text hp.1 e hp.2⟩

/-- An encoding that writes no text is an obstacle to every text. -/
theorem obstacle?_of_mishap? {e : Text.Encoding} {m : Mishap} (h : e.mishap? = some m)
    (text : String) : obstacle? text e = some (.mishap m) := by
  cases e <;> cases h <;> rfl

/-- An encoding that is spelled out is an obstacle to all texts or to none. -/
theorem obstacle?_of_known {e : Text.Encoding} (known : e.IsKnown) (text : String) :
    obstacle? text e = e.mishap?.map .mishap := by
  unfold obstacle? Text.Encoding.encode
  cases e with
  | other name => exact absurd rfl (known name)
  | transform | undefined => rfl
  | _ =>
    dsimp only
    generalize Text.Encoding.encodeBare _ text.toList = body
    cases body <;> rfl

theorem obstacle?_of_ok {text : String} {e : Text.Encoding}
    (h : ∃ value, e.encode text = .ok value) : obstacle? text e = none := by
  obtain ⟨value, hvalue⟩ := h
  unfold obstacle?
  rw [hvalue]

theorem text_of_of? {text : String} {e : Text.Encoding} {c : Candidate} (h : of? text e = some c) :
    c.text = text := by
  unfold of? at h
  split at h
  · cases h
    rfl
  · cases h

theorem isSome_of?_iff {text : String} {e : Text.Encoding} :
    (of? text e).isSome ↔ ∃ value, e.encode text = .ok value := by
  unfold of?
  cases e.encode text <;> simp

theorem length_pairs {encodings : List Text.Encoding} {texts : List String}
    (h : ∀ text ∈ texts, ∀ e ∈ encodings, ∃ value, e.encode text = .ok value) :
    (pairs encodings texts).length = texts.length * encodings.length := by
  have hall : ∀ p ∈ texts ×ˢ encodings, (of? p.1 p.2).isSome := by
    intro p hp
    obtain ⟨htext, he⟩ := List.mem_product.mp hp
    exact isSome_of?_iff.mpr (h p.1 htext p.2 he)
  unfold pairs
  rw [List.length_filterMap_eq_countP, List.countP_eq_length.mpr hall, List.length_product]

end Candidate

namespace Password
variable {w v : World} {spec label : String} {further : List String} {native : Text.Encoding}
  {others : List Text.Encoding} {texts : List String}

/-- Names in a row are accepted, each for the encoding that it stands for. -/
abbrev Accepted (further : List String) (others : List Text.Encoding) : Prop :=
  List.Forall₂ (fun name e => encodingNamed name = .ok e) further others

omit [Platform] in
theorem mapM_of_accepted (accepted : Accepted further others) :
    further.mapM encodingNamed = .ok others := by
  induction accepted with
  | nil => rfl
  | cons hname _ ih =>
    rw [List.mapM_cons, hname, ih]
    rfl

omit [Platform] in
theorem encodings_of_accepted (preferred : Text.Encoding.named w.native = .ok native)
    (accepted : Accepted further others) : encodings w further = .ok (native :: others) := by
  unfold encodings
  rw [preferred, mapM_of_accepted accepted]
  rfl

/-- The surroundings of which the log has been told what was handed out, and the vault keeps it. -/
def keeping (spec label : String) (handed : List Candidate) (w : World) : World :=
  { w with vault := w.vault.issue handed }.note [Note.text spec label (.handedOut handed.length)]

theorem run_candidates_of_lines (isOpen : w.vault.isOpen = true)
    (preferred : Text.Encoding.named w.native = .ok native) (accepted : Accepted further others)
    (source : w.run (lines spec label) = (.ok texts, v)) :
    w.run (candidates spec label further) =
      let noted := v.note ((leftOutNotes (native :: others) texts).map (Note.text spec label))
      match Candidate.firstObstacle? (native :: others) texts with
      | some fault => (.error fault, noted)
      | none =>
        let handed := Candidate.pairs (native :: others) texts
        (.ok handed, keeping spec label handed noted) := by
  rw [run_candidates, if_pos isOpen, encodings_of_accepted preferred accepted, source]
  simp only [handOut, Candidate.all_eq]
  cases Candidate.firstObstacle? (native :: others) texts <;> rfl

/-- Where there is no obstacle, just the encodings that cannot write a text are left out. -/
theorem leftOutNotes_of_clear {encodings : List Text.Encoding} {texts : List String}
    (clear : ∀ text ∈ texts, ∀ e ∈ encodings, Candidate.obstacle? text e = none) :
    leftOutNotes encodings texts = ((Candidate.attempts encodings texts).filter
      fun p => (Candidate.of? p.1 p.2).isNone).map fun p => .leftOut p.2.name := by
  have hattempts : ∀ p ∈ Candidate.attempts encodings texts,
      Candidate.obstacle? p.1 p.2 = none := by
    intro p hp
    obtain ⟨text, htext, hp⟩ := List.mem_flatMap.mp hp
    obtain ⟨e, he, rfl⟩ := List.mem_map.mp hp
    exact clear text htext e he
  rw [leftOutNotes, Candidate.leftOut_of_clear hattempts, List.map_map]
  rfl

/-- Passwords are expanded to all pairs of a text and an encoding that can write it, in order and
with repetitions, unless there is an obstacle: then nothing is handed out, and the first obstacle
is what asking fails with. An encoding that writes no text is one for every text, although its name
is accepted; one that is spelled out and writes text is none for any. -/
theorem expansion_is_complete_iff (isOpen : w.vault.isOpen = true)
    (preferred : Text.Encoding.named w.native = .ok native) (accepted : Accepted further others)
    (source : w.run (lines spec label) = (.ok texts, v)) :
    let encodings := native :: others
    let noted := v.note ((leftOutNotes encodings texts).map (Note.text spec label))
    let outcome := w.run (candidates spec label further)
    ((∃ handed, outcome.1 = .ok handed) ↔
      ∀ text ∈ texts, ∀ e ∈ encodings, Candidate.obstacle? text e = none) ∧
    (∀ handed, outcome.1 = .ok handed → handed = Candidate.pairs encodings texts ∧
      outcome.2 = keeping spec label handed noted ∧
      leftOutNotes encodings texts = ((Candidate.attempts encodings texts).filter
        fun p => (Candidate.of? p.1 p.2).isNone).map fun p => .leftOut p.2.name) ∧
    (∀ fault, Candidate.firstObstacle? encodings texts = some fault →
      outcome = (.error fault, noted)) ∧
    (∀ e ∈ encodings, e.mishap? ≠ none → texts ≠ [] → ∃ fault, outcome = (.error fault, noted)) ∧
    ((∀ e ∈ encodings, e.IsKnown ∧ e.mishap? = none) → ∃ handed, outcome.1 = .ok handed) ∧
    ((∀ text ∈ texts, ∀ e ∈ encodings, ∃ value, e.encode text = .ok value) →
      ∃ handed, outcome.1 = .ok handed ∧
        handed.length = texts.length * (1 + further.length)) := by
  intro encodings noted outcome
  have hrun := run_candidates_of_lines isOpen preferred accepted source
  have hfails (fault : Fault) (h : Candidate.firstObstacle? encodings texts = some fault) :
      outcome = (.error fault, noted) := by
    simp only [outcome, hrun, encodings, h, noted]
  have hclear (h : ∀ text ∈ texts, ∀ e ∈ encodings, Candidate.obstacle? text e = none) :
      outcome = (.ok (Candidate.pairs encodings texts),
        keeping spec label (Candidate.pairs encodings texts) noted) := by
    simp only [outcome, hrun, Candidate.firstObstacle?_eq_none_iff.mpr h, encodings, noted]
  -- What is handed out was not lost to an obstacle.
  have hnone (handed : List Candidate) (h : outcome.1 = .ok handed) :
      ∀ text ∈ texts, ∀ e ∈ encodings, Candidate.obstacle? text e = none := by
    cases hfirst : Candidate.firstObstacle? encodings texts with
    | none => exact Candidate.firstObstacle?_eq_none_iff.mp hfirst
    | some fault =>
      rw [hfails fault hfirst] at h
      cases h
  refine ⟨⟨?_, ?_⟩, ?_, hfails, ?_, ?_, ?_⟩
  · intro ⟨handed, h⟩
    exact hnone handed h
  · intro h
    exact ⟨_, congrArg Prod.fst (hclear h)⟩
  · intro handed h
    have hall := hclear (hnone handed h)
    obtain rfl := Except.ok.inj ((congrArg Prod.fst hall).symm.trans h)
    exact ⟨rfl, congrArg Prod.snd hall, leftOutNotes_of_clear (hnone _ h)⟩
  · intro e he hmishap hne
    obtain ⟨m, hm⟩ := Option.ne_none_iff_exists'.mp hmishap
    obtain ⟨text, htext⟩ := List.exists_mem_of_ne_nil texts hne
    cases hfirst : Candidate.firstObstacle? encodings texts with
    | some fault => exact ⟨fault, hfails fault hfirst⟩
    | none =>
      have hno := Candidate.firstObstacle?_eq_none_iff.mp hfirst text htext e he
      rw [Candidate.obstacle?_of_mishap? hm] at hno
      cases hno
  · intro hknown
    refine ⟨_, congrArg Prod.fst (hclear fun text _ e he => ?_)⟩
    rw [Candidate.obstacle?_of_known (hknown e he).1, (hknown e he).2]
    rfl
  · intro hall
    have hno := hclear fun text htext e he => Candidate.obstacle?_of_ok (hall text htext e he)
    refine ⟨_, congrArg Prod.fst hno, ?_⟩
    rw [Candidate.length_pairs hall, List.length_cons, accepted.length_eq, Nat.add_comm 1]

end Password
end General

section Samples
attribute [local instance] Platform.standard

namespace Password

/-- A password with a sign that one of the two encodings does not have. -/
theorem sample_expansion :
    let w := World.ofFiles (.ofContents [])
    w.vault.isOpen = true ∧ Text.Encoding.named w.native = .ok .utf8 ∧
    Accepted ["ascii", "latin1"] [.ascii, .latin1] ∧
    w.run (lines "pass:ä" "Password") = (.ok ["ä"], w) ∧
    (w.run (candidates "pass:ä" "Password" ["ascii", "latin1"])).1 =
      .ok [⟨"ä", "utf-8", [0xc3, 0xa4]⟩, ⟨"ä", "iso8859-1", [0xe4]⟩] := by
  intro w
  have preferred : Text.Encoding.named w.native = .ok .utf8 := by decide +kernel
  have accepted : Accepted ["ascii", "latin1"] [.ascii, .latin1] :=
    .cons (by decide +kernel) (.cons (by decide +kernel) .nil)
  have source : w.run (lines "pass:ä" "Password") = (.ok ["ä"], w) := rfl
  obtain ⟨hclear, hpairs, -⟩ := expansion_is_complete_iff (w := w) rfl preferred accepted source
  obtain ⟨handed, hhanded⟩ := hclear.mpr (by decide +kernel)
  refine ⟨rfl, preferred, accepted, source, ?_⟩
  rw [hhanded, (hpairs handed hhanded).1]
  decide +kernel

/-- The name of an encoding of bytes is accepted, and then costs all candidates. -/
theorem sample_obstacle :
    encodingNamed "rot13" = .ok (.transform "rot-13") ∧
    ((World.ofFiles (.ofContents [])).run (candidates "pass:x" "Password" ["rot13"])).1 =
      .error (.mishap .unknownName) := by
  decide +kernel

end Password
end Samples
end PackageSigning
