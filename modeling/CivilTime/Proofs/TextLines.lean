import CivilTime.Text.Blank

/-!
# Lines of texts

How a text is cut into lines, and what is left of a line without the blanks at its ends.

* `Text.CutsInto` and `Text.Strips` say it without a computation.
* `Text.cutsInto_iff` and `Text.strips_iff` say that there is one result, the computed one.
  Reading a line is `Text.lines_append`: what comes before its end is the line, and what comes after
  is cut on its own.
-/

namespace CivilTime

namespace Text

variable {text line core : List Char} {rest : List (List Char)}

/-! ## Lines -/

/-- A character at which a line ends. -/
def IsLineEnd (c : Char) : Prop :=
  c = '\n' ∨ c = '\r'

/-- A line, and what ends it in front of a text.  A carriage return before a line feed does not end
a line by itself. -/
inductive EndsLine : List Char → List Char → Prop
  | lineFeed (text : List Char) : EndsLine ['\n'] text
  | both (text : List Char) : EndsLine ['\r', '\n'] text
  | carriageReturn {text : List Char} (halone : text.head? ≠ some '\n') : EndsLine ['\r'] text

/-- A text is cut into lines. -/
inductive CutsInto : List Char → List (List Char) → Prop
  | nil : CutsInto [] []
  | last {line : List Char} (hfilled : line ≠ []) (hnoEnd : ∀ c ∈ line, ¬IsLineEnd c) :
    CutsInto line [line]
  | cons {line ending text : List Char} {lines : List (List Char)}
    (hnoEnd : ∀ c ∈ line, ¬IsLineEnd c) (hends : EndsLine ending text)
    (hcut : CutsInto text lines) :
    CutsInto (line ++ (ending ++ text)) (line :: lines)

theorem lines_go_append (hnoEnd : ∀ c ∈ line, ¬IsLineEnd c) (current text : List Char) :
    lines.go current (line ++ text) = lines.go (line.reverse ++ current) text := by
  induction line generalizing current with
  | nil => rfl
  | cons c line ih =>
    obtain ⟨hc, hline⟩ := List.forall_mem_cons.1 hnoEnd
    rw [IsLineEnd, not_or] at hc
    have hcons :
        lines.go current (c :: (line ++ text)) = lines.go (c :: current) (line ++ text) := by
      rw [lines.go.eq_3]
      · simp [hc.1, hc.2]
      · simp [hc.2]
    rw [List.cons_append, hcons, ih hline, List.reverse_cons, List.append_assoc,
      List.singleton_append]

theorem lines_go_ending {ending : List Char} (h : EndsLine ending text) (current : List Char) :
    lines.go current (ending ++ text) = current.reverse :: lines text := by
  cases h with
  | lineFeed => simp [lines.go, lines]
  | both => simp [lines.go, lines]
  | carriageReturn halone =>
    cases text with
    | nil => simp [lines.go, lines]
    | cons c text =>
      have hc : c ≠ '\n' := by simpa using halone
      rw [List.singleton_append, lines.go.eq_3 _ _ _ fun _ _ h => hc (List.cons.inj h).1]
      rfl

theorem lines_append (hnoEnd : ∀ c ∈ line, ¬IsLineEnd c) {ending : List Char}
    (hends : EndsLine ending text) : lines (line ++ (ending ++ text)) = line :: lines text := by
  rw [lines, lines_go_append hnoEnd, lines_go_ending hends, List.append_nil, List.reverse_reverse]

theorem lines_last (hfilled : line ≠ []) (hnoEnd : ∀ c ∈ line, ¬IsLineEnd c) :
    lines line = [line] := by
  have hgo := lines_go_append hnoEnd [] []
  rw [List.append_nil, List.append_nil] at hgo
  rw [lines, hgo, lines.go, if_neg (by simpa using hfilled), List.reverse_reverse]

theorem cutsInto_go {current : List Char} (hnoEnd : ∀ c ∈ current, ¬IsLineEnd c) :
    CutsInto (current.reverse ++ text) (lines.go current text) := by
  have hreverse : ∀ {current : List Char}, (∀ c ∈ current, ¬IsLineEnd c) →
      ∀ c ∈ current.reverse, ¬IsLineEnd c := fun h c hc => h c (List.mem_reverse.1 hc)
  fun_induction lines.go current text with
  | case1 current hempty =>
    obtain rfl := List.isEmpty_iff.1 hempty
    exact .nil
  | case2 current hfilled =>
    rw [List.append_nil]
    exact .last (by simpa using hfilled) (hreverse hnoEnd)
  | case3 current text ih => exact .cons (hreverse hnoEnd) (.both text) (ih (List.forall_mem_nil _))
  | case4 current c text hboth hend ih =>
    have hends : EndsLine [c] text := by
      rw [Bool.or_eq_true, decide_eq_true_eq, decide_eq_true_eq] at hend
      rcases hend with rfl | rfl
      · exact .lineFeed text
      · refine .carriageReturn fun hhead => ?_
        obtain ⟨rest, rfl⟩ := List.head?_eq_some_iff.1 hhead
        exact hboth rest rfl rfl
    exact .cons (hreverse hnoEnd) hends (ih (List.forall_mem_nil _))
  | case5 current c text hboth hend ih =>
    rw [Bool.or_eq_true, decide_eq_true_eq, decide_eq_true_eq] at hend
    have hcut := ih (List.forall_mem_cons.2 ⟨hend, hnoEnd⟩)
    rwa [List.reverse_cons, List.append_assoc] at hcut

/-- A text is cut into lines in one way, the one that is computed. -/
theorem cutsInto_iff : CutsInto text rest ↔ rest = lines text := by
  constructor
  · intro h
    induction h with
    | nil => rfl
    | last hfilled hnoEnd => exact (lines_last hfilled hnoEnd).symm
    | cons hnoEnd hends hcut ih => rw [ih, lines_append hnoEnd hends]
  · rintro rfl
    exact cutsInto_go (List.forall_mem_nil _)

/-! ## Blanks -/

/-- The text does not begin with a blank. -/
def StartsFilled (text : List Char) : Prop :=
  ∀ c, text.head? = some c → isBlank c = false

/-- A text has blanks before and after a part that does not begin or end with one. -/
structure Strips (text core : List Char) : Prop where
  around : ∃ front back, text = front ++ (core ++ back) ∧
    (∀ c ∈ front, isBlank c = true) ∧ ∀ c ∈ back, isBlank c = true
  starts : StartsFilled core
  ends : StartsFilled core.reverse

theorem startsFilled_dropWhile (text : List Char) : StartsFilled (text.dropWhile isBlank) := by
  intro c hc
  have hnot := List.head?_dropWhile_not isBlank text
  rw [hc] at hnot
  exact hnot

theorem dropWhile_append {front back : List Char} (hfront : ∀ c ∈ front, isBlank c = true)
    (hback : StartsFilled back) : (front ++ back).dropWhile isBlank = back := by
  rw [List.dropWhile_append_of_pos hfront]
  cases back with
  | nil => rfl
  | cons c back => exact List.dropWhile_cons_of_neg (by simp [hback c rfl])

theorem trim_of_blank (h : ∀ c ∈ text, isBlank c = true) : trim text = [] := by
  have hnil : (text ++ []).dropWhile isBlank = [] := dropWhile_append h nofun
  rw [List.append_nil] at hnil
  rw [trim, hnil]
  rfl

theorem strips_trim (text : List Char) : Strips text (trim text) := by
  -- What is left without the blanks at the beginning ends with the other blanks.
  have hfront : text.takeWhile isBlank ++ text.dropWhile isBlank = text :=
    List.takeWhile_append_dropWhile
  have hback : trim text ++ ((text.dropWhile isBlank).reverse.takeWhile isBlank).reverse =
      text.dropWhile isBlank := by
    rw [trim, ← List.reverse_append, List.takeWhile_append_dropWhile, List.reverse_reverse]
  refine ⟨⟨text.takeWhile isBlank, _, by rw [hback, hfront], ?_, ?_⟩, ?_, ?_⟩
  · exact List.all_eq_true.1 List.all_takeWhile
  · exact fun c hc => List.all_eq_true.1 List.all_takeWhile c (List.mem_reverse.1 hc)
  · intro c hc
    refine startsFilled_dropWhile text c ?_
    rw [← hback, List.head?_append, hc]
    rfl
  · rw [trim, List.reverse_reverse]
    exact startsFilled_dropWhile _

/-- A text has one such part, the one that is computed. -/
theorem strips_iff : Strips text core ↔ core = trim text := by
  constructor
  · rintro ⟨⟨front, back, rfl, hfront, hback⟩, hstarts, hends⟩
    cases core with
    | nil =>
      rw [List.nil_append, trim_of_blank]
      exact List.forall_mem_append.2 ⟨hfront, hback⟩
    | cons c core =>
      have hback' : ∀ c ∈ back.reverse, isBlank c = true :=
        fun c hc => hback c (List.mem_reverse.1 hc)
      have hfilled : StartsFilled (c :: core ++ back) := hstarts
      rw [trim, dropWhile_append hfront hfilled, List.reverse_append,
        dropWhile_append hback' hends, List.reverse_reverse]
  · rintro rfl
    exact strips_trim text

end Text

end CivilTime
