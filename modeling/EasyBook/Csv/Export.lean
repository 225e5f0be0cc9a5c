import EasyBook.Csv.Reader

/-!
# CSV exports

`csv.util.ts`. A cell that a spreadsheet might take for a formula is neutralised first and quoted
afterwards, so a reader finds the neutralised texts, cell by cell (`toCsv_round_trip`).
-/

namespace EasyBook.Csv

open JsString

/-- A cell; `ν` are the numbers of the language. -/
inductive Cell (ν : Type*) where
  | string (text : JsString)
  | number (n : ν)
  | null
  | undefined

/-- `FORMULA_LEADERS`: `=`, `+`, `-`, `@`, tab and CR. -/
def formulaLeaders : List ℕ := [61, 43, 45, 64, 9, 13]

/-- `neutralise`. -/
def neutralise : JsString → JsString
  | [] => []
  | u :: cell => if u ∈ formulaLeaders then 39 :: u :: cell else u :: cell

variable {ν : Type*} (string : ν → JsString)

/-- `String(value)`, and nothing for `null` and `undefined`; `string` writes numbers. -/
def Cell.text : Cell ν → JsString
  | .string text => text
  | .number n => string n
  | .null | .undefined => []

/-- The neutralised text of a cell. -/
def cellText (value : Cell ν) : JsString := neutralise (value.text string)

/-- `/[",\r\n]/.test(text)`. -/
def needsQuotes (text : JsString) : Bool :=
  text.any fun u ↦ decide (u = 34 ∨ u = 44 ∨ u = 13 ∨ u = 10)

/-- A text as a field; the quotes in it are doubled by the `replace`. -/
def quote (text : JsString) : JsString :=
  if needsQuotes text then 34 :: (doubled text ++ [34]) else text

/-- `csvCell`. -/
def csvCell (value : Cell ν) : JsString := quote (cellText string value)

/-- `toCsv`. -/
def toCsv (lines : List (List (Cell ν))) : JsString :=
  0xFEFF :: ([13, 10].intercalate
    (lines.map fun line ↦ [44].intercalate (line.map (csvCell string))) ++ [13, 10])

/-! ### Formulas -/

theorem neutralise_safe (cell : JsString) : ∀ u ∈ (neutralise cell).head?, u ∉ formulaLeaders := by
  cases cell with
  | nil => exact fun u hu ↦ (nomatch hu)
  | cons u cell =>
    rw [neutralise]
    split_ifs with hu
    · rintro v ⟨⟩
      decide
    · rintro v ⟨⟩
      exact hu

/-! ### Reading an export -/

variable {string} {row : List JsString} {rows : List (List JsString)} {text s : JsString}

/-- A field is read as the text that was written. -/
theorem read_quote : ∃ m : Mode, m.Ends ∧
    read ⟨.start, [], row, rows⟩ (quote text ++ s) = read ⟨m, text, row, rows⟩ s := by
  unfold quote
  split_ifs with hquotes
  · refine ⟨.closed, .inr (.inr rfl), ?_⟩
    rw [List.cons_append, List.append_assoc]
    exact read_quoted
  · refine read_plain (fun u hu ↦ ?_) (.inl rfl)
    have hno : ¬ (u = 34 ∨ u = 44 ∨ u = 13 ∨ u = 10) := fun hcase ↦
      hquotes (List.any_eq_true.2 ⟨u, hu, decide_eq_true hcase⟩)
    push Not at hno
    exact hno

/-- A line ends its record. -/
theorem read_line {texts : List JsString} (hne : texts ≠ []) :
    read ⟨.start, [], row, rows⟩ ([44].intercalate (texts.map quote) ++ 13 :: 10 :: s) =
      read ⟨.start, [], [], rows ++ [row ++ texts]⟩ s := by
  induction texts generalizing row with
  | nil => exact absurd rfl hne
  | cons text texts ih =>
    cases texts with
    | nil =>
      obtain ⟨m, hm, hread⟩ : ∃ m : Mode, m.Ends ∧
          read ⟨.start, [], row, rows⟩ (quote text ++ 13 :: 10 :: s) =
            read ⟨m, text, row, rows⟩ (13 :: 10 :: s) := read_quote
      rw [List.map_singleton, List.intercalate_singleton, hread, read_crlf hm]
    | cons text' texts =>
      obtain ⟨m, hm, hread⟩ : ∃ m : Mode, m.Ends ∧
          read ⟨.start, [], row, rows⟩ (quote text ++
              44 :: ([44].intercalate ((text' :: texts).map quote) ++ 13 :: 10 :: s)) =
            read ⟨m, text, row, rows⟩
              (44 :: ([44].intercalate ((text' :: texts).map quote) ++ 13 :: 10 :: s)) :=
        read_quote
      have hsplit : [44].intercalate ((text :: text' :: texts).map quote) ++ 13 :: 10 :: s =
          quote text ++
            44 :: ([44].intercalate ((text' :: texts).map quote) ++ 13 :: 10 :: s) := by
        rw [List.map_cons, List.map_cons, List.intercalate_cons_cons]
        simp
      rw [hsplit, hread, read_comma hm, ih (List.cons_ne_nil _ _), List.append_assoc]
      rfl

/-- The lines are the records. -/
theorem read_lines {lines : List (List JsString)} (hne : lines ≠ [])
    (hlines : ∀ line ∈ lines, line ≠ []) :
    read ⟨.start, [], [], rows⟩
      ([13, 10].intercalate (lines.map fun line ↦ [44].intercalate (line.map quote)) ++ [13, 10]) =
      some (rows ++ lines) := by
  induction lines generalizing rows with
  | nil => exact absurd rfl hne
  | cons line lines ih =>
    obtain ⟨hline, hrest⟩ := List.forall_mem_cons.1 hlines
    cases lines with
    | nil =>
      rw [List.map_singleton, List.intercalate_singleton, read_line hline, List.nil_append]
      rfl
    | cons line' lines =>
      have hsplit : [13, 10].intercalate ((line :: line' :: lines).map fun line ↦
            [44].intercalate (line.map quote)) ++ [13, 10] =
          [44].intercalate (line.map quote) ++ 13 :: 10 ::
            ([13, 10].intercalate ((line' :: lines).map fun line ↦
              [44].intercalate (line.map quote)) ++ [13, 10]) := by
        rw [List.map_cons, List.map_cons, List.intercalate_cons_cons]
        simp
      rw [hsplit, read_line hline, ih (List.cons_ne_nil _ _) hrest, List.nil_append,
        List.append_assoc]
      rfl

/-- **An export round-trips and cannot inject a formula.** A reader finds the neutralised texts of
the cells, row by row and cell by cell, and none of them starts like a formula. -/
theorem toCsv_round_trip (string : ν → JsString) (lines : List (List (Cell ν))) (hne : lines ≠ [])
    (hlines : ∀ line ∈ lines, line ≠ []) :
    ∃ rows, readFile (toCsv string lines) = some rows ∧
      rows = lines.map (fun line ↦ line.map (cellText string)) ∧
      rows.length = lines.length ∧ rows.map List.length = lines.map List.length ∧
      ∀ row ∈ rows, ∀ text ∈ row, ∀ u ∈ text.head?, u ∉ formulaLeaders := by
  refine ⟨_, ?_, rfl, List.length_map _, by simp, ?_⟩
  · have hcells : lines.map (fun line ↦ [44].intercalate (line.map (csvCell string))) =
        (lines.map fun line ↦ line.map (cellText string)).map fun line ↦
          [44].intercalate (line.map quote) := by
      rw [List.map_map]
      refine List.map_congr_left fun line _ ↦ ?_
      rw [Function.comp_apply, List.map_map]
      rfl
    rw [toCsv, hcells]
    exact read_lines (by simpa using hne) (by simpa using hlines)
  · intro row hrow text htext
    obtain ⟨line, -, rfl⟩ := List.mem_map.1 hrow
    obtain ⟨cell, -, rfl⟩ := List.mem_map.1 htext
    exact neutralise_safe _

/-- Quotes, separators, line breaks and the start of a formula in one row, and a row of nothing. -/
theorem toCsv_round_trip_cells : ∃ rows,
    readFile (toCsv decimal
      [[.string (lit "a\"b,c\r\n"), .string (lit "=1+1"), .number (-5)], [.null]]) = some rows ∧
      rows = [[lit "a\"b,c\r\n", lit "'=1+1", lit "'-5"], [[]]] := by
  obtain ⟨rows, hread, hrows, -⟩ := toCsv_round_trip decimal
    [[.string (lit "a\"b,c\r\n"), .string (lit "=1+1"), .number (-5)], [.null]] (by decide)
    (by decide)
  exact ⟨rows, hread, hrows.trans (by decide)⟩

end EasyBook.Csv
