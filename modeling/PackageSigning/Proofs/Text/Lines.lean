import PackageSigning.Text.Characters

/-!
# Lines of texts

Texts that are written one per line are read as their pieces between line ends
(`Text.lines_joined`). More characters end a line than the line feed and the carriage return, so
that a text may be read as several.
-/

namespace PackageSigning.Text

/-- Texts one per line, with a line feed behind each. -/
def joined (texts : List String) : String :=
  String.ofList (texts.flatMap fun text => text.toList ++ ['\n'])

/-- The pieces of a text between line ends. -/
def pieces (text : String) : List String := (text.toList.splitOnP isLineEnd).map String.ofList

theorem linesFrom_cons {c : Char} (h : c ≠ '\r') (current rest : List Char) :
    linesFrom current (c :: rest) =
      if isLineEnd c then current.reverse :: linesFrom [] rest
      else linesFrom (c :: current) rest := by
  rw [linesFrom]
  intro rest' hc
  exact absurd hc h

/-- A line that is written behind what is open already. -/
theorem linesFrom_append {text : List Char} (h : '\r' ∉ text) (current rest : List Char) :
    linesFrom current (text ++ '\n' :: rest) =
      text.splitOnPPrepend isLineEnd current ++ linesFrom [] rest := by
  -- Without a carriage return in front of it, the line feed ends a line alone.
  induction text generalizing current with
  | nil => rfl
  | cons c text ih =>
    have hc : c ≠ '\r' := (List.ne_of_not_mem_cons h).symm
    have hopen := ih (List.not_mem_of_not_mem_cons h)
    rw [List.cons_append, linesFrom_cons hc, List.splitOnPPrepend_cons_eq_if, hopen, hopen,
      List.splitOnP_eq_splitOnPPrepend]
    split <;> rfl

theorem lines_joined {texts : List String} (h : ∀ text ∈ texts, '\r' ∉ text.toList) :
    lines (joined texts) = texts.flatMap pieces := by
  unfold lines joined
  rw [String.toList_ofList]
  induction texts with
  | nil => rfl
  | cons text texts ih =>
    obtain ⟨hfirst, hrest⟩ := List.forall_mem_cons.mp h
    rw [List.flatMap_cons, List.append_assoc, List.singleton_append, linesFrom_append hfirst,
      List.map_append, ih hrest, List.flatMap_cons, ← List.splitOnP_eq_splitOnPPrepend]
    rfl

theorem pieces_of_plain {text : String} (h : ∀ c ∈ text.toList, isLineEnd c = false) :
    pieces text = [text] := by
  unfold pieces
  rw [List.splitOnP_eq_singleton h]
  exact congrArg ([·]) String.ofList_toList

theorem not_isLineEnd_of_mem_splitOnP {cs piece : List Char}
    (h : piece ∈ cs.splitOnP isLineEnd) : ∀ c ∈ piece, isLineEnd c = false := by
  induction cs generalizing piece with
  | nil =>
    obtain rfl := List.mem_singleton.mp h
    nofun
  | cons c cs ih =>
    rw [List.splitOnP_cons_eq_if_modifyHead] at h
    split at h
    · obtain rfl | h := List.mem_cons.mp h
      · nofun
      · exact ih h
    · next hc =>
      -- The character goes in front of the first piece behind it.
      cases hrest : cs.splitOnP isLineEnd with
      | nil => exact absurd hrest (List.splitOnP_ne_nil _ _)
      | cons first others =>
        rw [hrest] at h
        obtain rfl | h := List.mem_cons.mp h
        · refine List.forall_mem_cons.mpr ⟨by simpa using hc, ih ?_⟩
          rw [hrest]
          exact List.mem_cons_self
        · refine ih ?_
          rw [hrest]
          exact List.mem_cons_of_mem _ h

theorem plain_of_mem_pieces {text piece : String} (h : piece ∈ pieces text) :
    ∀ c ∈ piece.toList, isLineEnd c = false := by
  obtain ⟨cs, hcs, rfl⟩ := List.mem_map.mp h
  rw [String.toList_ofList]
  exact not_isLineEnd_of_mem_splitOnP hcs

/-- Texts without line ends are their own pieces. -/
theorem flatMap_pieces_of_plain {texts : List String}
    (plain : ∀ text ∈ texts, ∀ c ∈ text.toList, isLineEnd c = false) :
    texts.flatMap pieces = texts := by
  induction texts with
  | nil => rfl
  | cons text rest ih =>
    obtain ⟨htext, hrest⟩ := List.forall_mem_cons.mp plain
    rw [List.flatMap_cons, pieces_of_plain htext, ih hrest]
    rfl

/-! ## Line ends at the end -/

theorem dropLineFeeds_feed (line : List Char) :
    dropLineFeeds (String.ofList (line ++ ['\n'])) =
      dropLineFeeds (String.ofList line) := by
  simp [dropLineFeeds]

theorem dropLineFeeds_of_plain {text : String} (hfeed : '\n' ∉ text.toList)
    (hreturn : '\r' ∉ text.toList) : dropLineFeeds text = text := by
  have hlast : text.toList.reverse.dropWhile (fun c => c == '\n' || c == '\r') =
      text.toList.reverse := by
    cases hrev : text.toList.reverse with
    | nil => rfl
    | cons c rest =>
      have hc : c ∈ text.toList := List.mem_reverse.mp (hrev ▸ List.mem_cons_self)
      refine List.dropWhile_cons_of_neg ?_
      simp [ne_of_mem_of_not_mem hc hfeed, ne_of_mem_of_not_mem hc hreturn]
  unfold dropLineFeeds
  rw [hlast, List.reverse_reverse, String.ofList_toList]

end PackageSigning.Text
