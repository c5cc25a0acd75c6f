import PackageSigning.Proofs.Pem

/-!
# Armour is longer than what it holds

The contents of a block are no longer than its body, and its lines of armour come on top: all
blocks of a text together hold fewer bytes than the text has (`Pem.length_blocks?`), and so does
the first block of a key file (`Pem.length_firstContent?`). Hence armoured bytes are never their own
content (`Pem.unarmor_eq_self_iff`).
-/

namespace PackageSigning.Pem

variable {b rest : Bytes}

/-! ## The parts of a text -/

theorem eq_of_splitAt? {marker before after : Bytes} (h : splitAt? marker b = some (before, after)) :
    b = before ++ (marker ++ after) := by
  induction b generalizing before after with
  | nil =>
    rw [splitAt?] at h
    split at h
    · next hmarker =>
      cases h
      rw [List.isEmpty_iff.mp hmarker]
      rfl
    · cases h
  | cons x b ih =>
    rw [splitAt?] at h
    split at h
    · next hprefix =>
      cases h
      obtain ⟨tail, htail⟩ := List.isPrefixOf_iff_prefix.mp hprefix
      rw [← htail, List.drop_left, List.nil_append]
    · obtain ⟨⟨before', after'⟩, hsplit, h⟩ := Option.map_eq_some_iff.mp h
      cases h
      rw [ih hsplit]
      rfl

theorem length_splitAt? {marker before after : Bytes}
    (h : splitAt? marker b = some (before, after)) :
    before.length + marker.length + after.length = b.length := by
  rw [eq_of_splitAt? h, List.length_append, List.length_append, Nat.add_assoc]

theorem length_dropBlanks (b : Bytes) : (dropBlanks b).length ≤ b.length :=
  (List.dropWhile_sublist _).length_le

theorem length_divideBody (b : Bytes) : (divideBody b).2.length ≤ b.length := by
  unfold divideBody
  cases hfeeds : splitAt? [10, 10] b with
  | some parts =>
    have := length_splitAt? hfeeds
    simp only [Option.orElse_some, Option.getD_some]
    omega
  | none =>
    cases hreturns : splitAt? [13, 10, 13, 10] b with
    | some parts =>
      have := length_splitAt? hreturns
      simp only [Option.orElse_none, Option.getD_some]
      omega
    | none => exact Nat.le_refl _

/-- A block is longer than its body. -/
theorem length_nextBlock? {raw : RawBlock} (h : nextBlock? b = some (raw, rest)) :
    raw.body.length + 1 + rest.length ≤ b.length := by
  unfold nextBlock? at h
  simp only [Option.bind_eq_bind, Option.bind_eq_some_iff] at h
  obtain ⟨⟨_, b₁⟩, hopening, ⟨opened, b₂⟩, hlabel, ⟨body, b₃⟩, hbody, ⟨closed, b₄⟩, hclosed, h⟩ := h
  cases h
  have hopening := length_splitAt? hopening
  have hlabel := length_splitAt? hlabel
  have hbody := length_splitAt? hbody
  have hclosed := length_splitAt? hclosed
  have hblanks := length_dropBlanks b₂
  have hrest := length_dropBlanks b₄
  have hdata := length_divideBody body
  have hmarker : opening.length = 11 := rfl
  dsimp only at *
  omega

theorem length_rawBlocks (fuel : Nat) (b : Bytes) :
    ((rawBlocks fuel b).flatMap RawBlock.body).length + (rawBlocks fuel b).length ≤ b.length := by
  induction fuel generalizing b with
  | zero => exact Nat.zero_le _
  | succ fuel ih =>
    unfold rawBlocks
    split
    · exact Nat.zero_le _
    · next raw rest hnext =>
      have := length_nextBlock? hnext
      have := ih rest
      rw [List.flatMap_cons, List.length_append, List.length_cons]
      omega

/-! ## The contents of a block -/

theorem trimEnd_sublist (cs : List Char) : (trimEnd cs).Sublist cs := by
  have hdropped := (List.dropWhile_sublist (l := cs.reverse) Text.isPadding).reverse
  rwa [List.reverse_reverse] at hdropped

/-- The lines of a text without what stands at their ends. -/
theorem trimmedLines_sublist (current cs : List Char) :
    ((textLines current cs).flatMap trimEnd).Sublist (current.reverse ++ cs) := by
  fun_induction textLines current cs with
  | case1 current hempty => exact List.nil_sublist _
  | case2 current hempty =>
    rw [List.flatMap_singleton, List.append_nil]
    exact trimEnd_sublist _
  | case3 current rest ih =>
    rw [List.flatMap_cons]
    refine ((trimEnd_sublist _).trans ?_).append (ih.cons '\n')
    -- A carriage return in front of the line feed goes as well.
    split
    · rw [List.reverse_cons]
      exact List.sublist_append_left _ _
    · exact List.Sublist.refl _
  | case4 current c rest hc ih =>
    rw [List.reverse_cons, List.append_assoc] at ih
    exact ih

theorem length_block? {raw : RawBlock} {block : PemBlock} (h : block? raw = some block) :
    block.contents.length ≤ raw.body.length := by
  unfold block? at h
  simp only [Option.bind_eq_bind, Option.bind_eq_some_iff] at h
  obtain ⟨label, -, closed, -, h⟩ := h
  split at h
  · cases h
  · simp only [Option.bind_eq_some_iff] at h
    obtain ⟨body, hbody, contents, hcontents, headerLines, -, headers, -, h⟩ := h
    cases h
    have hlines := Bytes.length_ofText_of_sublist (trimmedLines_sublist [] body)
    rw [List.reverse_nil, List.nil_append, Text.Encoding.ofText_of_decodeUtf8 hbody] at hlines
    exact Nat.le_trans (Text.Base64.length_decode? hcontents) hlines

/-- All blocks of a text together hold fewer bytes than the text has. -/
theorem length_blocks? {blocks : List PemBlock} (h : blocks? b = some blocks) :
    (blocks.flatMap PemBlock.contents).length + blocks.length ≤ b.length := by
  have hmapM (raws : List RawBlock) (blocks : List PemBlock) (h : raws.mapM block? = some blocks) :
      (blocks.flatMap PemBlock.contents).length + blocks.length ≤
        (raws.flatMap RawBlock.body).length + raws.length := by
    induction raws generalizing blocks with
    | nil =>
      cases h
      exact Nat.le_refl _
    | cons raw raws ih =>
      rw [List.mapM_cons] at h
      obtain ⟨block, hblock, h⟩ := Option.bind_eq_some_iff.mp h
      obtain ⟨others, hothers, h⟩ := Option.bind_eq_some_iff.mp h
      cases h
      have := length_block? hblock
      have := ih others hothers
      simp only [List.flatMap_cons, List.length_append, List.length_cons]
      omega
  exact Nat.le_trans (hmapM _ _ h) (length_rawBlocks _ b)

/-! ## The first block of a key file -/

theorem length_byteLines (current b : Bytes) :
    (byteLines current b).flatten.length ≤ current.length + b.length := by
  fun_induction byteLines current b with
  | case1 => exact Nat.zero_le _
  | case2 current => simp
  | case3 current rest ih | case4 current x rest _ _ ih =>
    simp only [List.flatten_cons, List.length_append, List.length_reverse, List.length_cons,
      List.length_nil] at ih ⊢
    omega
  | case5 current x rest _ _ ih =>
    simp only [List.length_cons] at ih ⊢
    omega

theorem length_bodyOf? {lines : List Bytes} {body : Bytes} (h : bodyOf? lines = some body) :
    body.length ≤ lines.flatten.length := by
  induction lines generalizing body with
  | nil => cases h
  | cons line lines ih =>
    rw [bodyOf?] at h
    split at h
    · cases h
      exact Nat.zero_le _
    · obtain ⟨others, hothers, rfl⟩ := Option.map_eq_some_iff.mp h
      have := ih hothers
      simp only [List.length_append, List.flatten_cons]
      omega

theorem pastHeaders?_suffix {lines rest : List Bytes} (h : pastHeaders? lines = some rest) :
    rest <:+ lines := by
  induction lines with
  | nil =>
    cases h
    exact List.suffix_refl _
  | cons line lines ih =>
    rw [pastHeaders?] at h
    split at h
    · split at h
      · exact (ih h).trans (List.suffix_cons line lines)
      · cases h
    · cases h
      exact List.suffix_refl _

/-- The line that opens a block is no part of its contents. -/
theorem length_firstContent? {contents : Bytes} (h : firstContent? b = some contents) :
    contents.length < b.length := by
  unfold firstContent? at h
  simp only [Option.bind_eq_bind, Option.bind_eq_some_iff] at h
  obtain ⟨inside, hinside, body, hbody, hcontents⟩ := h
  have hlines : ((byteLines [] b).filter (!·.isEmpty)).flatten.length ≤ b.length := by
    have := length_byteLines [] b
    have := (List.filter_sublist (l := byteLines [] b) (p := (!·.isEmpty))).flatten.length_le
    simp only [List.length_nil] at *
    omega
  have hcontents := Text.Base64.length_decodeLoose? hcontents
  have hbody' := length_bodyOf? hbody
  have hinside' := (pastHeaders?_suffix hinside).sublist.flatten.length_le
  cases hopened : ((byteLines [] b).filter (!·.isEmpty)).dropWhile (!opensBlock ·) with
  | nil =>
    -- No line opens a block, so there is no body.
    rw [hopened] at hinside
    cases hinside
    cases hbody
  | cons line others =>
    have hsuffix : line :: others <:+ (byteLines [] b).filter (!·.isEmpty) :=
      hopened ▸ List.dropWhile_suffix _
    have hline : line ≠ [] := by
      have hkept := (List.mem_filter.mp (hsuffix.mem List.mem_cons_self)).2
      simpa using hkept
    have hpositive := List.length_pos_iff.mpr hline
    have htotal := hsuffix.sublist.flatten.length_le
    rw [hopened, List.drop_succ_cons, List.drop_zero] at hinside'
    rw [List.flatten_cons, List.length_append] at htotal
    omega

theorem unarmor_eq_self_iff : unarmor b = .ok b ↔ isArmoured b = false := by
  unfold unarmor
  cases harmoured : isArmoured b with
  | false => simp
  | true =>
    rw [if_pos rfl]
    cases hcontents : firstContent? b with
    | none => simp
    | some contents =>
      have hlength := length_firstContent? hcontents
      have hne : contents ≠ b := by
        rintro rfl
        exact Nat.lt_irrefl _ hlength
      simpa using hne

end PackageSigning.Pem
