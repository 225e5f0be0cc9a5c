import EasyBook.Ecma.Text

/-!
# Reading comma-separated values

A reader of RFC 4180. Records end with CRLF, the last one possibly without; fields are separated by
commas. A field that starts with a quote goes to the closing one, and a quote inside of it is
doubled; any other field has no quote, no comma and no line break. `read` works unit by unit:
`Reader` is what it keeps of the input so far.

`read_plain` and `read_quoted` say how a field is read, `read_comma` and `read_crlf` what follows.
-/

namespace EasyBook.Csv

/-- Where the reader is. -/
inductive Mode where
  /-- At the start of a field. -/
  | start
  /-- In a field without quotes. -/
  | plain
  /-- Between quotes. -/
  | quoted
  /-- After a quote that may be the closing one. -/
  | closed
  /-- After the CR of a line end. -/
  | cr
  deriving DecidableEq, Repr

/-- What was read: the units of the field, the fields of the record, and the records before it. -/
structure Reader where
  mode : Mode
  field : JsString
  row : List JsString
  rows : List (List JsString)

namespace Reader

/-- Before the first unit. -/
def init : Reader := ⟨.start, [], [], []⟩

/-- The field is over. -/
def endField (r : Reader) : Reader := ⟨.start, [], r.row ++ [r.field], r.rows⟩

/-- The record is over. -/
def endRecord (r : Reader) : Reader := ⟨.start, [], [], r.rows ++ [r.row ++ [r.field]]⟩

/-- The next unit. -/
def step (r : Reader) (u : ℕ) : Option Reader :=
  match r.mode with
  | .quoted =>
    if u = 34 then some { r with mode := .closed } else some { r with field := r.field ++ [u] }
  -- A carriage return ends a record together with the newline after it.
  | .cr => if u = 10 then some r.endRecord else none
  | _ =>
    if u = 34 then
      match r.mode with
      | .start => some { r with mode := .quoted }
      -- A quote after a quote inside quotes is one of the text.
      | .closed => some { r with mode := .quoted, field := r.field ++ [34] }
      | _ => none
    else if u = 44 then some r.endField
    else if u = 13 then some { r with mode := .cr }
    else if u = 10 ∨ r.mode = .closed then none
    else some { r with mode := .plain, field := r.field ++ [u] }

/-- The end of the input. -/
def finish (r : Reader) : Option (List (List JsString)) :=
  match r.mode with
  | .quoted | .cr => none
  | .start => if r.row = [] then some r.rows else some r.endRecord.rows
  | _ => some r.endRecord.rows

end Reader

/-- The records in the rest of the input. -/
def read (r : Reader) : JsString → Option (List (List JsString))
  | [] => r.finish
  | u :: s => (r.step u).bind fun r ↦ read r s

/-- The records of a file; a byte order mark is no part of the first one. -/
def readFile : JsString → Option (List (List JsString))
  | 0xFEFF :: s => read .init s
  | s => read .init s

/-! ### Fields -/

variable {row : List JsString} {rows : List (List JsString)} {field text s : JsString} {m : Mode}

/-- A field may end here. -/
def Mode.Ends (m : Mode) : Prop := m = .start ∨ m = .plain ∨ m = .closed

theorem read_comma (hm : m.Ends) :
    read ⟨m, field, row, rows⟩ (44 :: s) = read ⟨.start, [], row ++ [field], rows⟩ s := by
  rcases hm with rfl | rfl | rfl <;> rfl

theorem read_crlf (hm : m.Ends) :
    read ⟨m, field, row, rows⟩ (13 :: 10 :: s) =
      read ⟨.start, [], [], rows ++ [row ++ [field]]⟩ s := by
  rcases hm with rfl | rfl | rfl <;> rfl

/-- Units that need no quotes. -/
def Plain (text : JsString) : Prop := ∀ u ∈ text, u ≠ 34 ∧ u ≠ 44 ∧ u ≠ 13 ∧ u ≠ 10

theorem read_plain_cons {u : ℕ} (hu : u ≠ 34 ∧ u ≠ 44 ∧ u ≠ 13 ∧ u ≠ 10)
    (hm : m = .start ∨ m = .plain) :
    read ⟨m, field, row, rows⟩ (u :: s) = read ⟨.plain, field ++ [u], row, rows⟩ s := by
  obtain ⟨hquote, hcomma, hcr, hlf⟩ := hu
  rcases hm with rfl | rfl <;> simp [read, Reader.step, hquote, hcomma, hcr, hlf]

/-- A field without quotes. -/
theorem read_plain (htext : Plain text) (hm : m = .start ∨ m = .plain) :
    ∃ m' : Mode, m'.Ends ∧
      read ⟨m, field, row, rows⟩ (text ++ s) = read ⟨m', field ++ text, row, rows⟩ s := by
  induction text generalizing m field with
  | nil => exact ⟨m, hm.imp_right .inl, by simp⟩
  | cons u text ih =>
    obtain ⟨hu, htext⟩ := List.forall_mem_cons.1 htext
    obtain ⟨m', hm', hread⟩ : ∃ m' : Mode, m'.Ends ∧
        read ⟨.plain, field ++ [u], row, rows⟩ (text ++ s) =
          read ⟨m', field ++ [u] ++ text, row, rows⟩ s := ih htext (.inr rfl)
    refine ⟨m', hm', ?_⟩
    rw [List.cons_append, read_plain_cons hu hm, hread, List.append_assoc]
    rfl

/-- The text with its quotes doubled. -/
def doubled (text : JsString) : JsString := text.flatMap fun u ↦ if u = 34 then [34, 34] else [u]

theorem read_doubled :
    read ⟨.quoted, field, row, rows⟩ (doubled text ++ s) =
      read ⟨.quoted, field ++ text, row, rows⟩ s := by
  induction text generalizing field with
  | nil => simp [doubled]
  | cons u text ih =>
    have hcons : doubled (u :: text) = (if u = 34 then [34, 34] else [u]) ++ doubled text := by
      simp [doubled]
    have happend : field ++ u :: text = field ++ [u] ++ text := by simp
    rw [hcons, happend, ← ih]
    by_cases hu : u = 34
    · subst hu
      rfl
    · simp [hu, read, Reader.step]

/-- A field between quotes. -/
theorem read_quoted :
    read ⟨.start, [], row, rows⟩ (34 :: (doubled text ++ 34 :: s)) =
      read ⟨.closed, text, row, rows⟩ s := by
  calc read ⟨.start, [], row, rows⟩ (34 :: (doubled text ++ 34 :: s))
    _ = read ⟨.quoted, [], row, rows⟩ (doubled text ++ 34 :: s) := rfl
    _ = read ⟨.quoted, [] ++ text, row, rows⟩ (34 :: s) := read_doubled
    _ = read ⟨.closed, text, row, rows⟩ s := rfl

end EasyBook.Csv
