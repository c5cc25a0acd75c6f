import PackageSigning.Proofs.Text.Lines
import PackageSigning.Proofs.World.Asked

/-!
# Lines of input

The input is cut at its line feeds, and where a portion of it is lost (`Input.lines`). A run gets
its lines one after the other, as many as it asks for, and leaves the others (`World.run_input`).
-/

namespace PackageSigning

def Query.takesLine : Query → Bool
  | .line | .hiddenLine _ => true
  | _ => false

/-- Anything but taking a line of input. -/
abbrev Query.LeavesInput (q : Query) : Prop := q.takesLine = false

theorem Query.Looks.leavesInput {q : Query} (h : q.Looks) : q.LeavesInput := by
  cases q <;> first | rfl | exact h.elim

namespace Input

variable {line : List Char}

/-! ## Lines -/

/-- The pieces between line feeds. Behind a line feed at the very end there is none. -/
def feedLines (stretch : List Char) : List (List Char) :=
  let pieces := stretch.splitOn '\n'
  if pieces.getLast? = some [] then pieces.dropLast else pieces

/-- The pieces in front of line feeds. -/
def endedLines (stretch : List Char) : List (List Char) := (stretch.splitOn '\n').dropLast

/-- A line without its end. -/
def told (line : List Char) : Except Mishap String :=
  .ok (Text.dropLineFeeds (String.ofList line))

/-- The lines of stretches. Where input is lost, so is the line that has been begun. -/
def linesFrom (stretch : List Char) : List (List Char) → List (Except Mishap String)
  | [] => (feedLines stretch).map told
  | there :: rest => (endedLines stretch).map told ++ .error .undecodable :: linesFrom there rest

/-- The lines of the input without their ends, or that they are lost. -/
def lines (i : Input) : List (Except Mishap String) := linesFrom i.stretch i.behind

theorem feedLines_of_line (h : '\n' ∉ line) (hne : line ≠ []) : feedLines line = [line] := by
  unfold feedLines
  rw [List.splitOn_eq_singleton h]
  exact if_neg (by simpa using hne)

theorem feedLines_cons (h : '\n' ∉ line) (rest : List Char) :
    feedLines (line ++ '\n' :: rest) = line :: feedLines rest := by
  have hne := List.splitOn_ne_nil '\n' rest
  unfold feedLines
  dsimp only
  rw [List.splitOn_append_cons_self_of_not_mem h, List.getLast?_cons_of_ne_nil hne,
    List.dropLast_cons_of_ne_nil hne]
  exact (apply_ite (line :: ·) _ _ _).symm

theorem endedLines_of_line (h : '\n' ∉ line) : endedLines line = [] := by
  unfold endedLines
  rw [List.splitOn_eq_singleton h]
  rfl

theorem endedLines_cons (h : '\n' ∉ line) (rest : List Char) :
    endedLines (line ++ '\n' :: rest) = line :: endedLines rest := by
  have hne := List.splitOn_ne_nil '\n' rest
  unfold endedLines
  rw [List.splitOn_append_cons_self_of_not_mem h, List.dropLast_cons_of_ne_nil hne]

theorem splitLine_of_line (h : '\n' ∉ line) : splitLine line = (line, []) := by
  induction line with
  | nil => rfl
  | cons c line ih =>
    have hc : c ≠ '\n' := (List.ne_of_not_mem_cons h).symm
    simp [splitLine, ih (List.not_mem_of_not_mem_cons h)]

theorem splitLine_cons (h : '\n' ∉ line) (rest : List Char) :
    splitLine (line ++ '\n' :: rest) = (line ++ ['\n'], rest) := by
  induction line with
  | nil => rfl
  | cons c line ih =>
    have hc : c ≠ '\n' := (List.ne_of_not_mem_cons h).symm
    simp [splitLine, ih (List.not_mem_of_not_mem_cons h)]

/-! ## Taking lines -/

theorem take_of_line (h : '\n' ∉ line) (hne : line ≠ []) :
    take ⟨line, []⟩ = (.ok (some (String.ofList line)), ended) := by
  unfold take next
  dsimp only
  rw [if_neg (by simpa using hne), splitLine_of_line h]
  rfl

/-- A line feed in front of what is lost keeps the line. -/
theorem take_cons (h : '\n' ∉ line) (rest : List Char) (behind : List (List Char)) :
    take ⟨line ++ '\n' :: rest, behind⟩ =
      (.ok (some (String.ofList (line ++ ['\n']))), ⟨rest, behind⟩) := by
  have hnext : next ⟨line ++ '\n' :: rest, behind⟩ =
      (some (String.ofList (line ++ ['\n'])), ⟨rest, behind⟩) := by
    unfold next
    dsimp only
    rw [if_neg (by simp), splitLine_cons h]
  unfold take
  cases behind with
  | nil =>
    dsimp only
    rw [hnext]
  | cons there behind =>
    dsimp only
    rw [if_pos (by simp), hnext]

theorem take_lost (h : '\n' ∉ line) (there : List Char) (behind : List (List Char)) :
    take ⟨line, there :: behind⟩ = (.error .undecodable, ⟨there, behind⟩) := by
  unfold take
  exact if_neg (by simpa using h)

theorem lines_cons (h : '\n' ∉ line) (rest : List Char) (behind : List (List Char)) :
    lines ⟨line ++ '\n' :: rest, behind⟩ = told line :: lines ⟨rest, behind⟩ := by
  unfold lines linesFrom
  cases behind with
  | nil =>
    dsimp only
    rw [feedLines_cons h]
    rfl
  | cons there behind =>
    dsimp only
    rw [endedLines_cons h]
    rfl

/-- Input is at its end, or a line of it comes first, the last one or another, or one that is
lost. -/
theorem cases (i : Input) :
    i = ended ∨ (∃ line, '\n' ∉ line ∧ line ≠ [] ∧ i = ⟨line, []⟩) ∨
      (∃ line rest behind, '\n' ∉ line ∧ i = ⟨line ++ '\n' :: rest, behind⟩) ∨
      ∃ line there behind, '\n' ∉ line ∧ i = ⟨line, there :: behind⟩ := by
  obtain ⟨stretch, behind⟩ := i
  by_cases hfeed : '\n' ∈ stretch
  · obtain ⟨line, rest, rfl, hline⟩ := List.eq_append_cons_of_mem hfeed
    exact .inr (.inr (.inl ⟨line, rest, behind, hline, rfl⟩))
  · cases behind with
    | cons there behind => exact .inr (.inr (.inr ⟨stretch, there, behind, hfeed, rfl⟩))
    | nil =>
      by_cases hnil : stretch = []
      · exact .inl (by rw [hnil]; rfl)
      · exact .inr (.inl ⟨stretch, hfeed, hnil, rfl⟩)

/-- What reading comes to is the first line, and leaves the others. -/
theorem take_eq (i : Input) :
    i.take.1.map (Option.map Text.dropLineFeeds) = i.lines.head?.mapM id ∧
      i.take.2.lines = i.lines.tail := by
  obtain rfl | ⟨line, hline, hne, rfl⟩ | ⟨line, rest, behind, hline, rfl⟩ |
    ⟨line, there, behind, hline, rfl⟩ := i.cases
  · exact ⟨rfl, rfl⟩
  · have hlines : lines ⟨line, []⟩ = [told line] := congrArg (List.map told)
      (feedLines_of_line hline hne)
    rw [take_of_line hline hne, hlines]
    exact ⟨rfl, rfl⟩
  · rw [take_cons hline, lines_cons hline]
    exact ⟨congrArg (Except.ok ∘ some) (Text.dropLineFeeds_feed line), rfl⟩
  · have hlines : lines ⟨line, there :: behind⟩ = .error .undecodable :: lines ⟨there, behind⟩ := by
      unfold lines
      rw [linesFrom, endedLines_of_line hline]
      rfl
    rw [take_lost hline, hlines]
    exact ⟨rfl, rfl⟩

/-- The input behind a number of lines. -/
def skip : Nat → Input → Input
  | 0, i => i
  | n + 1, i => skip n i.take.2

theorem lines_skip (n : Nat) (i : Input) : (skip n i).lines = i.lines.drop n := by
  induction n generalizing i with
  | zero => rfl
  | succ n ih => rw [skip, ih, (take_eq i).2, List.drop_tail]

theorem skip_add (m n : Nat) (i : Input) : skip n (skip m i) = skip (m + n) i := by
  induction m generalizing i with
  | zero => rw [skip, Nat.zero_add]
  | succ m ih => rw [skip, ih, Nat.add_right_comm, skip]

end Input

namespace World
open PackageSigning.Action

variable {α β : Type} {w : World}

/-- The lines of input, or that they are lost. -/
abbrev inputLines (w : World) : List (Except Mishap String) := w.input.lines

theorem takeLine_inputLines (w : World) :
    w.takeLine.1.map (Option.map Text.dropLineFeeds) = w.inputLines.head?.mapM id :=
  (Input.take_eq w.input).1

/-- The input is not at its end while a line is there. -/
theorem takeLine_ne_end (here : w.inputLines ≠ []) : w.takeLine.1 ≠ .ok none := by
  intro h
  have htaken := takeLine_inputLines w
  obtain ⟨line, rest, hlines⟩ := List.exists_cons_of_ne_nil here
  rw [h, hlines] at htaken
  cases line <;> cases htaken

/-- What asking for a line behind so many others comes to; there is none at the end. -/
def lineAt (w : World) (k : Nat) : Except Fault (List String) :=
  match w.inputLines[k]? with
  | none => .ok []
  | some (.ok text) => .ok [text]
  | some (.error m) => .error (.mishap m)

/-! ## Lines that a run asks for -/

theorem keep_input (w : World) (result : Except FileFault Files) :
    (w.keep result).2.input = w.input := by
  cases result <;> rfl

/-- How many lines of input a run asks for. -/
def linesAsked (w : World) (x : Action α) : Nat := (w.asked x).countP Query.takesLine

theorem linesAsked_of_only {x : Action α} (h : x.Only Query.LeavesInput) : w.linesAsked x = 0 := by
  refine List.countP_eq_zero.mpr fun q hq => ?_
  rw [asked_of_only h q hq]
  exact Bool.false_ne_true

theorem linesAsked_bind_of_only {x : Action α} {f : α → Action β}
    (hf : ∀ a, (f a).Only Query.LeavesInput) : w.linesAsked (x >>= f) = w.linesAsked x := by
  unfold linesAsked
  rw [asked_bind, List.countP_append]
  obtain ⟨result, v⟩ := w.run x
  cases result with
  | ok a => exact congrArg (_ + ·) (linesAsked_of_only (hf a))
  | error _ => rfl

/-- A run takes the lines that it asks for, and leaves the rest of the input. -/
theorem run_input (w : World) (x : Action α) :
    (w.run x).2.input = w.input.skip (w.linesAsked x) := by
  induction x generalizing w with
  | done _ | fail _ => rfl
  | ask q next ih =>
    -- A question takes one line or leaves the input alone.
    have hq : (w.answer q).2.input = w.input.skip (if q.takesLine then 1 else 0) := by
      cases q with
      | write | move | remove | temporary => exact keep_input w _
      | _ => rfl
    calc (w.run (.ask q next)).2.input
      _ = (w.answer q).2.input.skip (linesAsked (w.answer q).2 (next (w.answer q).1)) := ih _ _
      _ = w.input.skip (w.linesAsked (.ask q next)) := by
        rw [hq, Input.skip_add]
        show Input.skip (_ + _) _ = Input.skip (List.countP Query.takesLine (q :: _)) _
        rw [List.countP_cons, Nat.add_comm]
        rfl

theorem run_inputLines (w : World) (x : Action α) :
    (w.run x).2.inputLines = w.inputLines.drop (w.linesAsked x) := by
  rw [inputLines, run_input, Input.lines_skip]

end World
end PackageSigning
