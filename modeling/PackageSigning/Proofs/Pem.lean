import PackageSigning.Pem
import PackageSigning.Proofs.Text.Base64
import PackageSigning.Proofs.Text.Encoding

/-!
# Armour is read as it was written

The text of a block holds that block and no other (`Pem.blocks?_armour`). Its lines are those of
the base 64 of the contents, between a line that opens the block and one that closes it.
-/

namespace PackageSigning.Pem
open Text (Base64.encode Base64.isCharacter)

variable {label : String} {contents : Bytes}

/-- The lines of the data of a block. -/
def lines (contents : Bytes) : List Bytes := Bytes.blocks 64 (Base64.encode contents)

/-- A block as bytes. -/
def armour (label : String) (contents : Bytes) : Bytes :=
  opening ++ Bytes.ofAscii label ++ dashes ++ [10] ++ wrap (Base64.encode contents) ++
    closing ++ Bytes.ofAscii label ++ dashes ++ [10]

theorem encode_eq (label : String) (contents : Bytes) :
    encode label contents = Bytes.toLatin (armour label contents) :=
  rfl

/-- A label that can be told from the dashes around it. -/
structure PlainLabel (label : String) : Prop where
  nonempty : label.toList ≠ []
  ascii : ∀ c ∈ label.toList, c.toNat < 128
  dashless : ∀ c ∈ label.toList, c.toNat ≠ 45

-- Decided over the characters of the label: a bounded quantifier may be decided by trying every
-- character there is.
instance decidablePlainLabel (label : String) : Decidable (PlainLabel label) :=
  decidable_of_iff (label.toList ≠ [] ∧
      label.toList.all (fun c => decide (c.toNat < 128) && c.toNat != 45)) <| by
    rw [List.all_eq_true]
    constructor
    · rintro ⟨nonempty, h⟩
      have hboth {c : Char} (hc : c ∈ label.toList) : c.toNat < 128 ∧ c.toNat ≠ 45 := by
        simpa using h c hc
      exact ⟨nonempty, fun c hc => (hboth hc).1, fun c hc => (hboth hc).2⟩
    · rintro ⟨nonempty, ascii, dashless⟩
      exact ⟨nonempty, fun c hc => by simp [ascii c hc, dashless c hc]⟩

/-! ## Lines -/

theorem flatten_lines (contents : Bytes) : (lines contents).flatten = Base64.encode contents :=
  (Bytes.flatten_blocks (by decide) _).1

theorem ne_nil_of_mem_lines {line : Bytes} (hline : line ∈ lines contents) : line ≠ [] :=
  (Bytes.flatten_blocks (by decide) (Base64.encode contents)).2 line hline

theorem isCharacter_of_mem_lines {line : Bytes} (hline : line ∈ lines contents) :
    ∀ x ∈ line, Base64.isCharacter x = true := by
  intro x hx
  have hmem : x ∈ Base64.encode contents := by
    rw [← flatten_lines]
    exact List.mem_flatten_of_mem hline hx
  exact Text.Base64.isCharacter_of_mem_encode x hmem

/-- What is in a body: characters of base 64 and line feeds. -/
theorem mem_wrap {x : UInt8} (hx : x ∈ wrap (Base64.encode contents)) :
    Base64.isCharacter x = true ∨ x = 10 := by
  obtain ⟨line, hline, hx⟩ := List.mem_flatMap.mp hx
  obtain hx | hx := List.mem_append.mp hx
  · exact .inl (isCharacter_of_mem_lines hline x hx)
  · exact .inr (List.mem_singleton.mp hx)

theorem not_mem_wrap {x : UInt8} (hother : Base64.isCharacter x = false) (hfeed : x ≠ 10) :
    x ∉ wrap (Base64.encode contents) := by
  intro hmem
  obtain hcharacter | hx := mem_wrap hmem
  · rw [hother] at hcharacter
    cases hcharacter
  · exact hfeed hx

/-! ## Cutting a text at a marker -/

variable {m : UInt8} {ms before : Bytes}

theorem splitAt?_append (h : m ∉ before) (rest : Bytes) :
    splitAt? (m :: ms) (before ++ (m :: ms ++ rest)) = some (before, rest) := by
  induction before with
  | nil => simp [splitAt?]
  | cons x before ih =>
    have hx : m ≠ x := fun heq => h (heq ▸ List.mem_cons_self)
    rw [List.cons_append, splitAt?, ih fun hmem => h (List.mem_cons_of_mem _ hmem)]
    simp [List.isPrefixOf, hx]

theorem splitAt?_eq_none (h : m ∉ before) : splitAt? (m :: ms) before = none := by
  induction before with
  | nil => rfl
  | cons x before ih =>
    have hx : m ≠ x := fun heq => h (heq ▸ List.mem_cons_self)
    rw [splitAt?, ih fun hmem => h (List.mem_cons_of_mem _ hmem)]
    simp [List.isPrefixOf, hx]

/-- No two line feeds stand side by side in a text whose lines are not empty. -/
theorem splitAt?_feeds_append {line rest : Bytes} (hline : 10 ∉ line) (hnext : rest.head? ≠ some 10)
    (hrest : splitAt? [10, 10] rest = none) : splitAt? [10, 10] (line ++ 10 :: rest) = none := by
  induction line with
  | nil =>
    cases rest with
    | nil => rfl
    | cons y rest =>
      have hy : (10 : UInt8) ≠ y := fun heq => hnext (heq ▸ rfl)
      rw [List.nil_append, splitAt?, hrest]
      simp [List.isPrefixOf, hy]
  | cons x line ih =>
    have hx : (10 : UInt8) ≠ x := fun heq => hline (heq ▸ List.mem_cons_self)
    rw [List.cons_append, splitAt?, ih fun hmem => hline (List.mem_cons_of_mem _ hmem)]
    simp [List.isPrefixOf, hx]

theorem splitAt?_feeds {ls : List Bytes} (hls : ∀ line ∈ ls, line ≠ [] ∧ 10 ∉ line) :
    splitAt? [10, 10] (ls.flatMap fun line => line ++ [10]) = none := by
  induction ls with
  | nil => rfl
  | cons line ls ih =>
    obtain ⟨⟨-, hline⟩, hls⟩ := List.forall_mem_cons.mp hls
    rw [List.flatMap_cons, List.append_assoc]
    refine splitAt?_feeds_append hline ?_ (ih hls)
    cases ls with
    | nil => nofun
    | cons next ls =>
      obtain ⟨⟨hne, hnext⟩, -⟩ := List.forall_mem_cons.mp hls
      cases next with
      | nil => exact absurd rfl hne
      | cons y next =>
        intro heq
        exact hnext (Option.some.inj heq ▸ List.mem_cons_self)

/-- A body has no headers. -/
theorem divideBody_wrap (contents : Bytes) :
    divideBody (wrap (Base64.encode contents)) = ([], wrap (Base64.encode contents)) := by
  have hfeeds : splitAt? [10, 10] (wrap (Base64.encode contents)) = none := by
    refine splitAt?_feeds fun line hline => ⟨ne_nil_of_mem_lines hline, fun hmem => ?_⟩
    cases isCharacter_of_mem_lines hline 10 hmem
  have hreturns : splitAt? [13, 10, 13, 10] (wrap (Base64.encode contents)) = none :=
    splitAt?_eq_none (not_mem_wrap rfl (by decide))
  simp [divideBody, hfeeds, hreturns]

/-! ## The parts of a block -/

theorem PlainLabel.not_mem (h : PlainLabel label) : (45 : UInt8) ∉ Bytes.ofAscii label := by
  intro hmem
  obtain ⟨c, hc, heq⟩ := List.mem_map.mp hmem
  have hascii := h.ascii c hc
  have hdash := congrArg UInt8.toNat heq
  rw [UInt8.toNat_ofNat', Nat.mod_eq_of_lt (by omega)] at hdash
  exact h.dashless c hc hdash

/-- A body and what closes it start with no blank. -/
theorem exists_body_eq_cons (contents rest : Bytes) :
    ∃ y ys, wrap (Base64.encode contents) ++ (closing ++ rest) = y :: ys ∧ 32 < y.toNat := by
  have hlines : wrap (Base64.encode contents) = (lines contents).flatMap fun line => line ++ [10] :=
    rfl
  cases hl : lines contents with
  | nil =>
    rw [hlines, hl]
    exact ⟨45, _, rfl, by decide⟩
  | cons line ls =>
    have hmem : line ∈ lines contents := hl ▸ List.mem_cons_self
    rw [hlines, hl]
    cases line with
    | nil => exact absurd rfl (ne_nil_of_mem_lines hmem)
    | cons y line =>
      have hy := isCharacter_of_mem_lines hmem y List.mem_cons_self
      exact ⟨y, _, rfl, (Text.Base64.lt_of_isCharacter hy).1⟩

theorem dropBlanks_cons {y : UInt8} (h : 32 < y.toNat) (ys : Bytes) :
    dropBlanks (10 :: y :: ys) = y :: ys := by
  have hy : (y = 32 || y = 9 || y = 10 || y = 13) = false := by
    simp only [Bool.or_eq_false_iff, decide_eq_false_iff_not]
    refine ⟨⟨⟨?_, ?_⟩, ?_⟩, ?_⟩ <;> (rintro rfl; revert h; decide)
  rw [dropBlanks, List.dropWhile_cons_of_pos (by decide), List.dropWhile_cons_of_neg (by simp [hy])]

theorem nextBlock?_armour (h : PlainLabel label) (contents : Bytes) :
    nextBlock? (armour label contents) =
      some (⟨Bytes.ofAscii label, [], wrap (Base64.encode contents), Bytes.ofAscii label⟩, []) := by
  have hcut (marker before rest : Bytes) (hmarker : marker.head? = some 45) (h : 45 ∉ before) :
      splitAt? marker (before ++ (marker ++ rest)) = some (before, rest) := by
    obtain ⟨ms, rfl⟩ := List.head?_eq_some_iff.mp hmarker
    exact splitAt?_append h rest
  obtain ⟨y, ys, hbody, hy⟩ :=
    exists_body_eq_cons contents (Bytes.ofAscii label ++ (dashes ++ [10]))
  have harmour : armour label contents = [] ++ (opening ++ (Bytes.ofAscii label ++ (dashes ++
      (10 :: (wrap (Base64.encode contents) ++ (closing ++ (Bytes.ofAscii label ++
        (dashes ++ [10])))))))) := by
    simp [armour]
  rw [harmour, nextBlock?, hcut opening [] _ rfl (by simp)]
  simp only [Option.bind_eq_bind, Option.bind_some]
  rw [hcut dashes _ _ rfl h.not_mem]
  simp only [Option.bind_some]
  rw [hbody, dropBlanks_cons hy, ← hbody, hcut closing _ _ rfl (not_mem_wrap rfl (by decide))]
  simp only [Option.bind_some]
  rw [hcut dashes _ _ rfl h.not_mem]
  simp only [Option.bind_some]
  rw [divideBody_wrap]
  rfl

theorem rawBlocks_armour (h : PlainLabel label) (contents : Bytes) :
    rawBlocks (armour label contents).length (armour label contents) =
      [⟨Bytes.ofAscii label, [], wrap (Base64.encode contents), Bytes.ofAscii label⟩] := by
  have hempty (fuel : Nat) : rawBlocks fuel [] = [] := by
    cases fuel <;> rfl
  obtain ⟨fuel, hfuel⟩ : ∃ fuel, (armour label contents).length = fuel + 1 :=
    Nat.exists_eq_succ_of_ne_zero (by simp [armour])
  rw [hfuel, rawBlocks, nextBlock?_armour h]
  exact congrArg _ (hempty fuel)

/-! ## The data of a block -/

theorem trimEnd_eq {cs : List Char} (h : ∀ c ∈ cs, Text.isPadding c = false) : trimEnd cs = cs := by
  have hreverse : cs.reverse.dropWhile Text.isPadding = cs.reverse := by
    cases hcs : cs.reverse with
    | nil => rfl
    | cons c rest =>
      have hc : c ∈ cs := List.mem_reverse.mp (hcs ▸ List.mem_cons_self)
      rw [List.dropWhile_cons_of_neg (by simp [h c hc])]
  rw [trimEnd, hreverse, List.reverse_reverse]

theorem textLines_append {line current : List Char} (hcurrent : ∀ c ∈ current, c ≠ '\r')
    (hline : ∀ c ∈ line, c ≠ '\n' ∧ c ≠ '\r') (rest : List Char) :
    textLines current (line ++ '\n' :: rest) = (current.reverse ++ line) :: textLines [] rest := by
  induction line generalizing current with
  | nil =>
    rw [List.nil_append, List.append_nil, textLines]
    intro before heq
    exact hcurrent '\r' (heq ▸ List.mem_cons_self) rfl
  | cons c line ih =>
    obtain ⟨⟨hfeed, hreturn⟩, hline⟩ := List.forall_mem_cons.mp hline
    rw [List.cons_append, textLines, ih (List.forall_mem_cons.mpr ⟨hreturn, hcurrent⟩) hline]
    · simp
    · exact hfeed

/-- Lines that line feeds end are told apart again. -/
theorem textLines_flatMap {ls : List (List Char)}
    (h : ∀ line ∈ ls, ∀ c ∈ line, c ≠ '\n' ∧ c ≠ '\r') :
    textLines [] (ls.flatMap fun line => line ++ ['\n']) = ls := by
  induction ls with
  | nil => rfl
  | cons line ls ih =>
    obtain ⟨hline, hls⟩ := List.forall_mem_cons.mp h
    rw [List.flatMap_cons, List.append_assoc]
    exact (textLines_append (by simp) hline _).trans (congrArg (line :: ·) (ih hls))

/-- The character of a byte. -/
def latin (x : UInt8) : Char := Char.ofNat x.toNat

theorem latin_of_isCharacter {x : UInt8} (h : Base64.isCharacter x = true) :
    Text.isPadding (latin x) = false ∧ latin x ≠ '\n' ∧ latin x ≠ '\r' := by
  have hx := Text.Base64.lt_of_isCharacter h
  have hlatin : (latin x).toNat = x.toNat := Bytes.toNat_latin x
  have hne {c : Char} (hc : c.toNat ≤ 32) : latin x ≠ c := by
    intro heq
    rw [heq] at hlatin
    omega
  refine ⟨?_, hne (by decide), hne (by decide)⟩
  have hblank : (x.toNat == 32) = false := by simpa using (show x.toNat ≠ 32 by omega)
  have htab : (9 ≤ x.toNat && x.toNat ≤ 13) = false := by simp; omega
  have hbeyond : decide (128 ≤ x.toNat) = false := by simp; omega
  simp [Text.isPadding, hlatin, hblank, htab, hbeyond]

theorem PlainLabel.isAscii (h : PlainLabel label) : (Bytes.ofAscii label).IsAscii := by
  intro x hx
  obtain ⟨c, hc, rfl⟩ := List.mem_map.mp hx
  have hascii := h.ascii c hc
  rwa [UInt8.toNat_ofNat', Nat.mod_eq_of_lt (by omega)]

theorem decodeUtf8_label (h : PlainLabel label) :
    Text.Encoding.decodeUtf8 (Bytes.ofAscii label) = some label.toList := by
  have hbyte {c : Char} (hc : c ∈ label.toList) : (UInt8.ofNat c.toNat).toNat = c.toNat := by
    have := h.ascii c hc
    rw [UInt8.toNat_ofNat', Nat.mod_eq_of_lt (by omega)]
  rw [Text.Encoding.decodeUtf8_ascii h.isAscii, Bytes.ofAscii, List.map_map]
  refine congrArg some ((List.map_congr_left fun c hc => ?_).trans (List.map_id _))
  show Char.ofNat (UInt8.ofNat c.toNat).toNat = c
  rw [hbyte hc, Char.ofNat_toNat]

/-- The lines of a body are told apart, and put together they are its base 64. -/
theorem textLines_wrap (contents : Bytes) :
    (textLines [] ((wrap (Base64.encode contents)).map latin)).flatMap trimEnd =
      (Base64.encode contents).map latin := by
  have hbody : (wrap (Base64.encode contents)).map latin =
      ((lines contents).map fun line => line.map latin).flatMap fun line => line ++ ['\n'] := by
    rw [wrap, List.map_flatMap, List.flatMap_map]
    simp only [List.map_append]
    rfl
  have hlines : ∀ line ∈ (lines contents).map fun line => line.map latin,
      ∀ c ∈ line, Text.isPadding c = false ∧ c ≠ '\n' ∧ c ≠ '\r' := by
    intro line hline c hc
    obtain ⟨bytes, hbytes, rfl⟩ := List.mem_map.mp hline
    obtain ⟨x, hx, rfl⟩ := List.mem_map.mp hc
    exact latin_of_isCharacter (isCharacter_of_mem_lines hbytes x hx)
  rw [hbody, textLines_flatMap fun line hline c hc => (hlines line hline c hc).2]
  have htrim : ((lines contents).map fun line => line.map latin).map trimEnd =
      ((lines contents).map fun line => line.map latin).map id :=
    List.map_congr_left fun line hline => trimEnd_eq fun c hc => (hlines line hline c hc).1
  rw [List.flatMap_def, htrim, List.map_id, ← flatten_lines contents, List.map_flatten]

theorem isAscii_encode (contents : Bytes) : (Base64.encode contents).IsAscii :=
  fun x hx => (Text.Base64.lt_of_isCharacter (Text.Base64.isCharacter_of_mem_encode x hx)).2.1

theorem isAscii_wrap (contents : Bytes) : (wrap (Base64.encode contents)).IsAscii := by
  intro x hx
  obtain hx | rfl := mem_wrap hx
  · exact (Text.Base64.lt_of_isCharacter hx).2.1
  · decide

theorem isAscii_armour (h : PlainLabel label) (contents : Bytes) :
    (armour label contents).IsAscii := by
  have hopening : opening.IsAscii := by decide
  have hclosing : closing.IsAscii := by decide
  have hdashes : (dashes ++ [10]).IsAscii := by decide
  unfold armour
  simp only [List.append_assoc]
  refine hopening.append (h.isAscii.append ?_)
  rw [← List.append_assoc dashes]
  exact hdashes.append ((isAscii_wrap contents).append
    (hclosing.append (h.isAscii.append hdashes)))

theorem block?_armour (h : PlainLabel label) (contents : Bytes) :
    block? ⟨Bytes.ofAscii label, [], wrap (Base64.encode contents), Bytes.ofAscii label⟩ =
      some ⟨label, [], contents⟩ := by
  have hlabel : (label.toList.isEmpty || label.toList != label.toList) = false := by
    simpa using h.nonempty
  have hdata : Bytes.ofText (String.ofList ((Base64.encode contents).map latin)) =
      Base64.encode contents :=
    Bytes.ofText_toLatin (isAscii_encode contents)
  have hnothing : Text.Encoding.decodeUtf8 [] = some [] :=
    Text.Encoding.decodeUtf8_ascii nofun
  have hbody : Text.Encoding.decodeUtf8 (wrap (Base64.encode contents)) =
      some ((wrap (Base64.encode contents)).map latin) :=
    Text.Encoding.decodeUtf8_ascii (isAscii_wrap contents)
  rw [block?, decodeUtf8_label h]
  simp only [Option.bind_eq_bind, Option.bind_some, hlabel, hbody, textLines_wrap, hdata,
    Text.Base64.decode?_encode, hnothing]
  have hheaders : (textLines [] []).mapM header? = some [] := rfl
  rw [if_neg (by decide), hheaders, String.ofList_toList]
  rfl

/-- The armour of some contents holds these contents and nothing else. -/
theorem blocks?_armour (h : PlainLabel label) (contents : Bytes) :
    blocks? (armour label contents) = some [⟨label, [], contents⟩] := by
  rw [blocks?, rawBlocks_armour h, List.mapM_cons, block?_armour h]
  rfl

end PackageSigning.Pem
