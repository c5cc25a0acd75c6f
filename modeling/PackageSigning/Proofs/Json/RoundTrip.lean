import PackageSigning.Proofs.Json.Scalar
import PackageSigning.Proofs.Json.Text
import PackageSigning.Proofs.OrderedMap
import PackageSigning.Proofs.Outcome
import PackageSigning.Proofs.Text.Encoding

/-!
# Reading values as they are written

A value is read back from its form for readers when it has no numbers but whole ones of no more
digits than are read, no two halves of a character side by side, no name twice in an object, and no
more levels than are read (`JsonReading.ofChars_indented`).
-/

namespace PackageSigning

namespace JsonValue

/-- The values of at most so many levels that are read back as they are written. -/
inductive Legible : Nat → JsonValue → Prop
  | null {depth : Nat} : Legible depth .null
  | bool {depth : Nat} (b : Bool) : Legible depth (.bool b)
  | integer {depth : Nat} {n : Int} (short : (Nat.toDigits 10 n.natAbs).length ≤ Text.maxDigits) :
    Legible depth (.integer n)
  | text {depth : Nat} {t : JsonText} (settled : t.Settled) : Legible depth (.text t)
  | list {depth : Nat} {items : List JsonValue} (legible : ∀ v ∈ items, Legible depth v) :
    Legible (depth + 1) (.list items)
  | object {depth : Nat} {members : List (JsonText × JsonValue)}
    (distinct : (members.map (·.1)).Nodup) (settled : ∀ m ∈ members, m.1.Settled)
    (legible : ∀ m ∈ members, Legible depth m.2) :
    Legible (depth + 1) (.object members)

theorem Legible.ofString {depth : Nat} (s : String) : Legible depth (.text s) :=
  .text (JsonText.settled_ofString s)

/-- An object whose names are texts without halves of characters. -/
theorem Legible.object_of_names {depth : Nat} {members : List (JsonText × JsonValue)}
    (names : List String) (distinct : names.Nodup)
    (named : members.map (·.1) = names.map JsonText.ofString)
    (legible : ∀ m ∈ members, Legible depth m.2) : Legible (depth + 1) (.object members) := by
  refine .object ?_ ?_ legible
  · rw [named]
    exact distinct.map fun _ _ => JsonText.ofString_injective
  · intro m hm
    have hmem : m.1 ∈ members.map (·.1) := List.mem_map_of_mem hm
    rw [named] at hmem
    obtain ⟨name, -, hname⟩ := List.mem_map.mp hmem
    rw [← hname]
    exact JsonText.settled_ofString name

/-- What is legible has no more levels than that. -/
theorem Legible.depth_le {depth : Nat} {v : JsonValue} (h : Legible depth v) : v.depth ≤ depth := by
  have hitems {depth : Nat} {items : List JsonValue} (h : ∀ v ∈ items, v.depth ≤ depth) :
      depthOfItems items ≤ depth := by
    induction items with
    | nil => exact Nat.zero_le _
    | cons v items ih =>
      obtain ⟨hv, hitems⟩ := List.forall_mem_cons.mp h
      exact Nat.max_le.mpr ⟨hv, ih hitems⟩
  have hmembers {depth : Nat} {members : List (JsonText × JsonValue)}
      (h : ∀ m ∈ members, m.2.depth ≤ depth) : depthOfMembers members ≤ depth := by
    induction members with
    | nil => exact Nat.zero_le _
    | cons m members ih =>
      obtain ⟨hm, hmembers⟩ := List.forall_mem_cons.mp h
      exact Nat.max_le.mpr ⟨hm, ih hmembers⟩
  induction h with
  | list _ ih => exact Nat.succ_le_succ (hitems ih)
  | object _ _ _ ih => exact Nat.succ_le_succ (hmembers ih)
  | _ => exact Nat.zero_le _

/-- What stands behind the first of some lines between brackets, and behind the brackets. -/
def behindFirst (closing : Char) (level : Nat) (lines : List (List Char)) (rest : List Char) :
    List Char :=
  lines.flatMap (fun line => ',' :: newLine (level + 1) ++ line) ++ newLine level ++ closing :: rest

theorem behindFirst_nil (closing : Char) (level : Nat) (rest : List Char) :
    behindFirst closing level [] rest = newLine level ++ closing :: rest := rfl

theorem behindFirst_cons (closing : Char) (level : Nat) (line : List Char)
    (lines : List (List Char)) (rest : List Char) :
    behindFirst closing level (line :: lines) rest =
      ',' :: (newLine (level + 1) ++ (line ++ behindFirst closing level lines rest)) := by
  simp [behindFirst]

theorem length_newLine (level : Nat) : (newLine level).length = 2 * level + 1 := by
  simp [newLine]

theorem commas_cons (text : List Char) (texts : List (List Char)) :
    commas (text :: texts) = text ++ texts.flatMap (',' :: ·) := by
  unfold commas
  induction texts generalizing text with
  | nil => simp
  | cons next texts ih => simp [List.intercalate_cons_cons, ih]

theorem block_cons (opening closing : Char) (level : Nat) (line : List Char)
    (lines : List (List Char)) (rest : List Char) :
    block opening closing level (line :: lines) ++ rest =
      opening :: (newLine (level + 1) ++ (line ++ behindFirst closing level lines rest)) := by
  unfold block behindFirst
  rw [List.map_cons, commas_cons, List.flatMap_map]
  simp

theorem length_block_cons (opening closing : Char) (level : Nat) (line : List Char)
    (lines : List (List Char)) : (block opening closing level (line :: lines)).length =
      line.length + (behindFirst closing level lines []).length + (2 * level + 4) := by
  have h := congrArg List.length (block_cons opening closing level line lines [])
  simp only [List.append_nil, List.length_cons, List.length_append, length_newLine] at h
  omega

end JsonValue

namespace JsonReading
open JsonValue

/-- The characters that no value starts with: blanks, and the brackets that close. -/
def between : List Char := [' ', '\t', '\n', '\r', ']', '\x7d']

/-- A text that starts like a value. -/
def Begun (cs : List Char) : Prop := ∃ c ∈ cs.head?, c ∉ between

theorem skip_newLine (level : Nat) (cs : List Char) : skip (newLine level ++ cs) = skip cs := by
  have hblanks (n : Nat) : skip (List.replicate n ' ' ++ cs) = skip cs := by
    induction n with
    | zero => rfl
    | succ n ih => exact ih
  exact hblanks (2 * level)

theorem skip_of_begun {cs : List Char} (h : Begun cs) : skip cs = cs := by
  obtain ⟨c, hc, hplain⟩ := h
  cases cs with
  | nil => cases hc
  | cons d rest =>
    cases hc
    rw [skip]
    all_goals
      rintro _ ⟨⟩
      exact hplain (by decide)

/-- What stands behind a value inside brackets cannot make it longer. -/
theorem ended_behindFirst (closing : Char) (level : Nat) (lines : List (List Char))
    (rest : List Char) : Ended (behindFirst closing level lines rest) := by
  cases lines with
  | nil =>
    rintro c ⟨⟩
    decide
  | cons line lines =>
    rintro c ⟨⟩
    decide

/-- A whole number starts with a digit or with the sign. -/
theorem exists_cons_integer (n : Int) (rest : List Char) : ∃ c cs,
    (toString n).toList ++ rest = c :: cs ∧ c ∉ ['"', '[', '\x7b'] ++ between := by
  cases n with
  | ofNat n =>
    obtain ⟨c, cs, hcs, hc⟩ := exists_toDigits_append n rest
    have hplain : (['"', '[', '\x7b'] ++ between).all (!isDigit ·) = true := by decide
    rw [toList_toString_ofNat]
    refine ⟨c, cs, hcs, ?_⟩
    intro hmem
    simpa [hc] using List.all_eq_true.mp hplain c hmem
  | negSucc n =>
    rw [toList_toString_negSucc]
    exact ⟨'-', _, rfl, by decide⟩

theorem begun_indented (level : Nat) {depth : Nat} {v : JsonValue} (h : Legible depth v)
    (rest : List Char) : Begun (indented level v ++ rest) := by
  cases h with
  | null => exact ⟨'n', rfl, by decide⟩
  | bool b => cases b <;> exact ⟨_, rfl, by decide⟩
  | @integer _ n =>
    obtain ⟨c, cs, hcs, hc⟩ := exists_cons_integer n rest
    exact ⟨c, congrArg List.head? hcs, fun hmem => hc (List.mem_append_right _ hmem)⟩
  | text settled => exact ⟨'"', rfl, by decide⟩
  | list =>
    refine ⟨'[', ?_, by decide⟩
    unfold indented block
    split <;> rfl
  | object =>
    refine ⟨'\x7b', ?_, by decide⟩
    unfold indented block
    split <;> rfl

/-- A value is read back wherever it stands, the fuel being as much as its text is long. -/
structure ReadsBack (depth : Nat) (v : JsonValue) : Prop where
  begun : ∀ level rest, Begun (indented level v ++ rest)
  value_eq : ∀ level fuel rest, Ended rest → (indented level v).length ≤ fuel →
    value fuel depth (indented level v ++ rest) = .ok (v, rest)

/-- A value is read back behind a blank. -/
theorem ReadsBack.value_blank {depth : Nat} {v : JsonValue} (h : ReadsBack depth v)
    {level fuel : Nat} {rest : List Char} (ended : Ended rest)
    (enough : (indented level v).length ≤ fuel) :
    value fuel depth (skip (' ' :: (indented level v ++ rest))) = .ok (v, rest) :=
  (congrArg (value fuel depth) (skip_of_begun (h.begun level rest))).trans
    (h.value_eq level fuel rest ended enough)

theorem value_scalar {c : Char} (h : c ∉ ['"', '[', '\x7b']) (fuel depth : Nat) (cs : List Char) :
    value (fuel + 1) depth (c :: cs) = scalar (c :: cs) := by
  rw [value]
  all_goals simp_all

theorem items_cons (fuel depth : Nat) {cs rest : List Char} {v : JsonValue}
    (h : value fuel depth cs = .ok (v, rest)) : items (fuel + 1) depth cs =
      match skip rest with
      | ']' :: rest => .ok ([v], rest)
      | ',' :: rest => Front.map (v :: ·) <$> items fuel depth (skip rest)
      | _ => .error .malformed := by
  rw [items, h]
  show (match skip rest with
    | ']' :: rest => _
    | ',' :: rest => _
    | _ => _) = _
  split <;> rfl

theorem members_cons (fuel depth : Nat) {name : JsonText} (settled : name.Settled)
    {cs rest : List Char} {v : JsonValue} (h : value fuel depth (skip (' ' :: cs)) = .ok (v, rest)) :
    members (fuel + 1) depth (quote name ++ ':' :: ' ' :: cs) =
      match skip rest with
      | '\x7d' :: rest => .ok ([(name, v)], rest)
      | ',' :: rest => Front.map ((name, v) :: ·) <$> members fuel depth (skip rest)
      | _ => .error .malformed := by
  have hquote : quote name ++ ':' :: ' ' :: cs =
      '"' :: (name.points.flatMap escapePoint ++ '"' :: ':' :: ' ' :: cs) := by
    simp [quote]
  rw [hquote, members, string_quote settled]
  show (value fuel depth (skip (' ' :: cs)) >>= _) = _
  rw [h]
  show (match skip rest with
    | '\x7d' :: rest => _
    | ',' :: rest => _
    | _ => _) = _
  split <;> rfl

/-- The values of a list are read back, up to the bracket. -/
theorem items_behindFirst {depth : Nat} {v : JsonValue} {vs : List JsonValue} (level fuel : Nat)
    (rest : List Char) (readsBack : ∀ u ∈ v :: vs, ReadsBack depth u)
    (enough : (indented (level + 1) v).length +
      (behindFirst ']' level (indentedItems (level + 1) vs) []).length ≤ fuel) :
    items fuel depth (indented (level + 1) v ++
      behindFirst ']' level (indentedItems (level + 1) vs) rest) = .ok (v :: vs, rest) := by
  obtain ⟨hv, hvs⟩ := List.forall_mem_cons.mp readsBack
  have hended := ended_behindFirst ']' level (indentedItems (level + 1) vs) rest
  -- A value takes one off the fuel, and at least its comma off the text.
  induction vs generalizing v fuel with
  | nil =>
    rw [indentedItems, behindFirst_nil, List.length_append, List.length_cons] at enough
    obtain ⟨fuel, rfl⟩ := Nat.exists_eq_succ_of_ne_zero (n := fuel) (by omega)
    rw [items_cons fuel depth (hv.value_eq (level + 1) fuel _ hended (by omega)), indentedItems,
      behindFirst_nil, skip_newLine]
    rfl
  | cons u vs ih =>
    obtain ⟨hu, hus⟩ := List.forall_mem_cons.mp hvs
    rw [indentedItems, behindFirst_cons, List.length_cons, List.length_append,
      List.length_append, length_newLine] at enough
    obtain ⟨fuel, rfl⟩ := Nat.exists_eq_succ_of_ne_zero (n := fuel) (by omega)
    rw [items_cons fuel depth (hv.value_eq (level + 1) fuel _ hended (by omega)), indentedItems,
      behindFirst_cons]
    show Front.map (v :: ·) <$> items fuel depth (skip (newLine (level + 1) ++ _)) = _
    rw [skip_newLine, skip_of_begun (hu.begun _ _),
      ih fuel hvs (by omega) hu hus (ended_behindFirst _ _ _ _)]
    rfl

/-- The members of an object are read back, up to the brace. -/
theorem members_behindFirst {depth : Nat} {m : JsonText × JsonValue}
    {ms : List (JsonText × JsonValue)} (level fuel : Nat) (rest : List Char)
    (readsBack : ∀ e ∈ m :: ms, e.1.Settled ∧ ReadsBack depth e.2)
    (enough : (quote m.1 ++ ':' :: ' ' :: indented (level + 1) m.2).length +
      (behindFirst '\x7d' level (indentedMembers (level + 1) ms) []).length ≤ fuel) :
    members fuel depth (quote m.1 ++ ':' :: ' ' :: indented (level + 1) m.2 ++
      behindFirst '\x7d' level (indentedMembers (level + 1) ms) rest) = .ok (m :: ms, rest) := by
  obtain ⟨hm, hms⟩ := List.forall_mem_cons.mp readsBack
  have hended := ended_behindFirst '\x7d' level (indentedMembers (level + 1) ms) rest
  induction ms generalizing m fuel with
  | nil =>
    rw [List.length_append, List.length_cons, List.length_cons, indentedMembers, behindFirst_nil,
      List.length_append, List.length_cons] at enough
    obtain ⟨fuel, rfl⟩ := Nat.exists_eq_succ_of_ne_zero (n := fuel) (by omega)
    rw [List.append_assoc, List.cons_append, List.cons_append,
      members_cons fuel depth hm.1 (hm.2.value_blank hended (by omega)), indentedMembers,
      behindFirst_nil, skip_newLine]
    rfl
  | cons n ms ih =>
    obtain ⟨hn, hns⟩ := List.forall_mem_cons.mp hms
    rw [indentedMembers, behindFirst_cons, List.length_append, List.length_cons, List.length_cons,
      List.length_cons, List.length_append, List.length_append, length_newLine] at enough
    obtain ⟨fuel, rfl⟩ := Nat.exists_eq_succ_of_ne_zero (n := fuel) (by omega)
    rw [List.append_assoc, List.cons_append, List.cons_append,
      members_cons fuel depth hm.1 (hm.2.value_blank hended (by omega)), indentedMembers,
      behindFirst_cons]
    have hbegun : Begun (quote n.1 ++ ':' :: ' ' :: indented (level + 1) n.2 ++
        behindFirst '\x7d' level (indentedMembers (level + 1) ms) rest) :=
      ⟨'"', rfl, by decide⟩
    show Front.map (m :: ·) <$> members fuel depth (skip (newLine (level + 1) ++ _)) = _
    rw [skip_newLine, skip_of_begun hbegun,
      ih fuel hms (by omega) hn hns (ended_behindFirst _ _ _ _)]
    rfl

theorem value_list_nil (fuel depth : Nat) (rest : List Char) :
    value (fuel + 1) (depth + 1) ('[' :: ']' :: rest) = .ok (.list [], rest) := by
  rw [value]
  rfl

theorem value_list {fuel depth : Nat} {cs rest : List Char} {vs : List JsonValue}
    (begun : Begun cs) (h : items fuel depth cs = .ok (vs, rest)) (level : Nat) :
    value (fuel + 1) (depth + 1) ('[' :: (newLine level ++ cs)) = .ok (.list vs, rest) := by
  rw [value, if_neg (Nat.succ_ne_zero depth), skip_newLine, skip_of_begun begun]
  obtain ⟨c, hc, hplain⟩ := begun
  split
  · -- The closing bracket starts no value.
    cases hc
    exact absurd (by decide) hplain
  · rw [Nat.add_sub_cancel, h]
    rfl

theorem value_object_nil (fuel depth : Nat) (rest : List Char) :
    value (fuel + 1) (depth + 1) ('\x7b' :: '\x7d' :: rest) = .ok (.object [], rest) := by
  rw [value]
  rfl

theorem value_object {fuel depth : Nat} {cs rest : List Char} {ms : List (JsonText × JsonValue)}
    (begun : Begun cs) (h : members fuel depth cs = .ok (ms, rest))
    (distinct : (ms.map (·.1)).Nodup) (level : Nat) :
    value (fuel + 1) (depth + 1) ('\x7b' :: (newLine level ++ cs)) = .ok (.object ms, rest) := by
  have hms : JsonValue.ofMembers ms = .object ms := by
    unfold JsonValue.ofMembers
    rw [OrderedMap.ofList_eq distinct]
  rw [value, if_neg (Nat.succ_ne_zero depth), skip_newLine, skip_of_begun begun]
  obtain ⟨c, hc, hplain⟩ := begun
  split
  · cases hc
    exact absurd (by decide) hplain
  · rw [Nat.add_sub_cancel, h]
    show Except.ok (JsonValue.ofMembers ms, rest) = _
    rw [hms]

theorem readsBack_of {depth : Nat} {v : JsonValue} (h : Legible depth v)
    (hvalue : ∀ level fuel rest, Ended rest → (indented level v).length ≤ fuel + 1 →
      value (fuel + 1) depth (indented level v ++ rest) = .ok (v, rest)) : ReadsBack depth v where
  begun level rest := begun_indented level h rest
  value_eq level fuel rest ended enough := by
    cases fuel with
    | zero =>
      -- No value is written as an empty text, so there is fuel for it.
      obtain ⟨c, hc, -⟩ := begun_indented level h []
      rw [List.length_eq_zero_iff.mp (Nat.le_zero.mp enough)] at hc
      cases hc
    | succ fuel => exact hvalue level fuel rest ended enough

/-- Every value that is legible is read back wherever it stands. -/
theorem readsBack_of_legible {depth : Nat} {v : JsonValue} (h : Legible depth v) :
    ReadsBack depth v := by
  induction h with
  | null =>
    refine readsBack_of .null fun level fuel rest _ _ => ?_
    exact value_scalar (by decide) fuel _ _
  | bool b =>
    refine readsBack_of (.bool b) fun level fuel rest _ _ => ?_
    cases b with
    | false => exact value_scalar (by decide) fuel _ _
    | true => exact value_scalar (by decide) fuel _ _
  | @integer _ n short =>
    refine readsBack_of (.integer short) fun level fuel rest ended _ => ?_
    obtain ⟨c, cs, hcs, hc⟩ := exists_cons_integer n rest
    show value (fuel + 1) _ ((toString n).toList ++ rest) = _
    rw [hcs, value_scalar (fun hmem => hc (List.mem_append_left _ hmem)), ← hcs]
    exact scalar_integer n ended short
  | @text _ t settled =>
    refine readsBack_of (.text settled) fun level fuel rest _ _ => ?_
    have hquote : quote t ++ rest = '"' :: (t.points.flatMap escapePoint ++ '"' :: rest) := by
      simp [quote]
    show value (fuel + 1) _ (quote t ++ rest) = _
    rw [hquote, value, string_quote settled]
    rfl
  | @list depth items legible ih =>
    refine readsBack_of (.list legible) fun level fuel rest _ enough => ?_
    cases items with
    | nil => exact value_list_nil fuel depth rest
    | cons v vs =>
      have hv := ih v List.mem_cons_self
      rw [indented, indentedItems, length_block_cons] at enough
      rw [indented, indentedItems, block_cons]
      exact value_list (hv.begun _ _)
        (items_behindFirst level fuel rest ih (by omega)) (level + 1)
  | @object depth members distinct settled legible ih =>
    have readsBack (m) (hm : m ∈ members) : m.1.Settled ∧ ReadsBack depth m.2 :=
      ⟨settled m hm, ih m hm⟩
    refine readsBack_of (.object distinct settled legible) fun level fuel rest _ enough => ?_
    cases members with
    | nil => exact value_object_nil fuel depth rest
    | cons m ms =>
      rw [indented, indentedMembers, length_block_cons] at enough
      rw [indented, indentedMembers, block_cons]
      exact value_object ⟨'"', rfl, by decide⟩
        (members_behindFirst level fuel rest readsBack (by omega)) distinct (level + 1)

/-- A legible value is the value of its text. -/
theorem ofChars_indented [Platform] {v : JsonValue} (h : Legible (Platform.nesting .read) v) :
    ofChars (indented 0 v) = .ok v := by
  have hv := readsBack_of_legible h
  have hbegun := hv.begun 0 []
  have hvalue := hv.value_eq 0 (2 * (indented 0 v).length + 2) [] ended_nil (by omega)
  rw [List.append_nil] at hbegun hvalue
  unfold ofChars
  rw [skip_of_begun hbegun, hvalue]
  rfl

/-- A legible value is read back from the bytes of its text. -/
theorem ofBytes_indented [Platform] {v : JsonValue} (h : Legible (Platform.nesting .read) v) :
    ofBytes (Bytes.ofText (String.ofList (indented 0 v))) = .ok v := by
  unfold ofBytes
  rw [Text.Encoding.decodeUtf8_ofText, String.toList_ofList]
  exact ofChars_indented h

end JsonReading
end PackageSigning
