import Mathlib.Algebra.Order.BigOperators.Group.List
import Mathlib.Algebra.Order.Group.Nat
import Mathlib.Data.List.Basic
import Mathlib.Tactic.Common

/-!
# Comma-separated values

`writeRows` is `csv.writer` with minimal quoting and doubled quotes, `read` is `csv.reader` on the
lines of a text that is opened with `newline=""`.  The reader is told of the end of a line after its
characters; in a quoted field this is nothing to it (`steps_quoted`), so that line breaks in fields
do no harm.  A field may have so many characters and no more.

`read_writeRows` says that the rows come back, whatever their fields hold, exactly if all of them
fit.
-/

namespace Library.Csv

/-- The characters that have a meaning. -/
structure Dialect (α : Type) where
  delimiter : α
  quote : α
  cr : α
  lf : α
  quote_ne_delimiter : quote ≠ delimiter
  cr_ne_delimiter : cr ≠ delimiter
  lf_ne_delimiter : lf ≠ delimiter
  cr_ne_quote : cr ≠ quote
  lf_ne_quote : lf ≠ quote
  cr_ne_lf : cr ≠ lf

namespace Dialect

variable {α : Type} [DecidableEq α] (d : Dialect α)

/-! ## Writing -/

/-- A field with such a character is quoted. -/
def isSpecial (c : α) : Bool := c = d.delimiter ∨ c = d.quote ∨ c = d.cr ∨ c = d.lf

/-- The characters of a quoted field. -/
def escape (field : List α) : List α :=
  field.flatMap fun c => if c = d.quote then [d.quote, d.quote] else [c]

def writeField (field : List α) : List α :=
  if field.any d.isSpecial then d.quote :: (d.escape field ++ [d.quote]) else field

/-- The fields with delimiters between them. -/
def writeFields : List (List α) → List α
  | [] => []
  | [field] => d.writeField field
  | field :: field' :: fields => d.writeField field ++ d.delimiter :: writeFields (field' :: fields)

/-- `writer.writerow(row)` -/
def writeRow (row : List (List α)) : List α :=
  -- a line with nothing on it would be a row without fields
  (if row = [[]] then [d.quote, d.quote] else d.writeFields row) ++ [d.cr, d.lf]

def writeRows (rows : List (List (List α))) : List α := rows.flatMap d.writeRow

/-! ## Reading -/

/-- The characters of the lines of a text, with `none` at the end of each line. -/
def lines : List α → List (Option α)
  | [] => []
  | [c] => [some c, none]
  | c :: c' :: text =>
      if c = d.lf ∨ c = d.cr ∧ c' ≠ d.lf then some c :: none :: lines (c' :: text)
      else some c :: lines (c' :: text)

inductive State where
  | startRecord
  | startField
  | inField
  | inQuotedField
  | quoteInQuotedField
  | eatCrnl
  deriving DecidableEq

/-- A reader: the rows it has returned, the fields of the row and the characters of the field so
far. -/
structure Reader (α : Type) where
  rows : List (List (List α)) := []
  fields : List (List α) := []
  field : List α := []
  state : State := .startRecord

/-- `parse_add_char`, `none` where the field is full. -/
def Reader.add (limit : ℕ) (r : Reader α) (c : α) (state : State) : Option (Reader α) :=
  if r.field.length < limit then some { r with field := r.field ++ [c], state } else none

/-- `parse_save_field` -/
def Reader.save (r : Reader α) (state : State) : Reader α :=
  { r with fields := r.fields ++ [r.field], field := [], state }

/-- The end of a line: in the midst of a field that is quoted the row goes on. -/
def endLine (r : Reader α) : Reader α :=
  match r.state with
  | .startRecord | .eatCrnl =>
      { rows := r.rows ++ [r.fields], fields := [], field := [], state := .startRecord }
  | .inQuotedField => r
  | .startField | .inField | .quoteInQuotedField =>
      { rows := r.rows ++ [r.fields ++ [r.field]], fields := [], field := [],
        state := .startRecord }

variable (limit : ℕ)

/-- A character where a field starts. -/
def startField (r : Reader α) (c : α) : Option (Reader α) :=
  if c = d.lf ∨ c = d.cr then some (r.save .eatCrnl)
  else if c = d.quote then some { r with state := .inQuotedField }
  else if c = d.delimiter then some (r.save .startField)
  else r.add limit c .inField

/-- `parse_process_char`, `none` where it raises. -/
def process (r : Reader α) (c : α) : Option (Reader α) :=
  match r.state with
  | .startRecord =>
      if c = d.lf ∨ c = d.cr then some { r with state := .eatCrnl } else d.startField limit r c
  | .startField => d.startField limit r c
  | .inField =>
      if c = d.lf ∨ c = d.cr then some (r.save .eatCrnl)
      else if c = d.delimiter then some (r.save .startField)
      else r.add limit c .inField
  | .inQuotedField =>
      if c = d.quote then some { r with state := .quoteInQuotedField }
      else r.add limit c .inQuotedField
  | .quoteInQuotedField =>
      if c = d.quote then r.add limit c .inQuotedField
      else if c = d.delimiter then some (r.save .startField)
      else if c = d.lf ∨ c = d.cr then some (r.save .eatCrnl)
      else r.add limit c .inField
  | .eatCrnl => if c = d.lf ∨ c = d.cr then some r else none

/-- What is left at the end of the text. -/
def finish (r : Reader α) : List (List (List α)) :=
  if r.field ≠ [] ∨ r.state = .inQuotedField then r.rows ++ [r.fields ++ [r.field]] else r.rows

def steps : List (Option α) → Reader α → Option (Reader α)
  | [], r => some r
  | none :: text, r => steps text (endLine r)
  | some c :: text, r => (d.process limit r c).bind (steps text)

/-- The rows of a text, `none` where the reader raises; `limit` is `csv.field_size_limit()`. -/
def read (text : List α) : Option (List (List (List α))) :=
  (d.steps limit (d.lines text) {}).map finish

/-! ## Fields -/

variable {d} {limit} {rows : List (List (List α))} {fields : List (List α)}
    {field text rest : List α}
variable {state : State} {c : α}

/-- A character that ends no line. -/
lemma lines_cons (hlf : c ≠ d.lf) (hcr : c ≠ d.cr) (h : rest ≠ []) :
    d.lines (c :: rest) = some c :: d.lines rest := by
  cases rest with
  | nil => exact absurd rfl h
  | cons c' rest => rw [lines, if_neg (by simp [hlf, hcr])]

/-- A character in a quoted field, whether or not a line ends with it. -/
lemma steps_cons_quoted (h : rest ≠ []) (hc : c ≠ d.quote) :
    d.steps limit (d.lines (c :: rest)) ⟨rows, fields, field, .inQuotedField⟩
      = if field.length < limit then
          d.steps limit (d.lines rest) ⟨rows, fields, field ++ [c], .inQuotedField⟩
        else none := by
  cases rest with
  | nil => exact absurd rfl h
  | cons c' rest =>
      have hprocess : d.process limit ⟨rows, fields, field, .inQuotedField⟩ c
          = if field.length < limit then some ⟨rows, fields, field ++ [c], .inQuotedField⟩
            else none := by
        simp [process, hc, Reader.add]
      rw [lines]
      split_ifs with hend hfits hfits
      · rw [steps, hprocess, if_pos hfits]
        rfl
      · rw [steps, hprocess, if_neg hfits]
        rfl
      · rw [steps, hprocess, if_pos hfits]
        rfl
      · rw [steps, hprocess, if_neg hfits]
        rfl

omit [DecidableEq α] in
/-- Where one character more does not fit, so much the less does the rest. -/
lemma fits_cons {β : Type} (c : α) (text : List α) (a : Option β) :
    (if field.length < limit then
      if (field ++ [c]).length + text.length ≤ limit then a else none
    else none) = if field.length + (c :: text).length ≤ limit then a else none := by
  rw [List.length_append, List.length_singleton, List.length_cons]
  split_ifs <;> first | rfl | omega

/-- The rest of a quoted field: line breaks in it are characters like any others. -/
lemma steps_quoted (text : List α) (h : rest ≠ []) (hfield : field.length ≤ limit) :
    d.steps limit (d.lines (d.escape text ++ d.quote :: rest)) ⟨rows, fields, field, .inQuotedField⟩
      = if field.length + text.length ≤ limit then
          d.steps limit (d.lines rest) ⟨rows, fields, field ++ text, .quoteInQuotedField⟩
        else none := by
  induction text generalizing field with
  | nil =>
      rw [List.append_nil, escape, List.flatMap_nil, List.nil_append,
        lines_cons d.lf_ne_quote.symm d.cr_ne_quote.symm h, steps, List.length_nil, Nat.add_zero,
        if_pos hfield]
      simp [process]
  | cons c text ih =>
      have hescape : d.escape (c :: text)
          = (if c = d.quote then [d.quote, d.quote] else [c]) ++ d.escape text := rfl
      have hstep : d.steps limit (d.lines (d.escape (c :: text) ++ d.quote :: rest))
            ⟨rows, fields, field, .inQuotedField⟩
          = if field.length < limit then
              d.steps limit (d.lines (d.escape text ++ d.quote :: rest))
                ⟨rows, fields, field ++ [c], .inQuotedField⟩
            else none := by
        rw [hescape, List.append_assoc]
        by_cases hc : c = d.quote
        · subst hc
          rw [if_pos rfl, List.cons_append, List.singleton_append,
            lines_cons d.lf_ne_quote.symm d.cr_ne_quote.symm (by simp),
            lines_cons d.lf_ne_quote.symm d.cr_ne_quote.symm (by simp), steps]
          simp only [process, if_true, Option.bind_some, steps, Reader.add]
          split_ifs
          · rfl
          · rfl
        · rw [if_neg hc, List.singleton_append, steps_cons_quoted (by simp) hc]
      have hih : field.length < limit →
          d.steps limit (d.lines (d.escape text ++ d.quote :: rest))
              ⟨rows, fields, field ++ [c], .inQuotedField⟩
            = if (field ++ [c]).length + text.length ≤ limit then
                d.steps limit (d.lines rest) ⟨rows, fields, field ++ c :: text, .quoteInQuotedField⟩
              else none := by
        intro hfits
        rw [ih (by simpa [Nat.succ_le_iff] using hfits), List.append_assoc, List.singleton_append]
      rw [hstep, ← fits_cons c text]
      exact ite_congr rfl hih fun _ => rfl

/-- The characters of a field that is not quoted. -/
lemma steps_plain (text : List α) (hplain : ∀ c ∈ text, d.isSpecial c = false) (h : rest ≠ [])
    (hfield : field.length ≤ limit) :
    d.steps limit (d.lines (text ++ rest)) ⟨rows, fields, field, .inField⟩
      = if field.length + text.length ≤ limit then
          d.steps limit (d.lines rest) ⟨rows, fields, field ++ text, .inField⟩
        else none := by
  induction text generalizing field with
  | nil => rw [List.nil_append, List.append_nil, List.length_nil, Nat.add_zero, if_pos hfield]
  | cons c text ih =>
      rw [List.forall_mem_cons] at hplain
      have hc := hplain.1
      simp only [isSpecial, decide_eq_false_iff_not, not_or] at hc
      have hstep : d.steps limit (d.lines (c :: text ++ rest)) ⟨rows, fields, field, .inField⟩
          = if field.length < limit then
              d.steps limit (d.lines (text ++ rest)) ⟨rows, fields, field ++ [c], .inField⟩
            else none := by
        rw [List.cons_append, lines_cons hc.2.2.2 hc.2.2.1 (by simp [h]), steps]
        simp only [process, hc, or_self, if_false, Reader.add]
        split_ifs
        · rfl
        · rfl
      have hih : field.length < limit →
          d.steps limit (d.lines (text ++ rest)) ⟨rows, fields, field ++ [c], .inField⟩
            = if (field ++ [c]).length + text.length ≤ limit then
                d.steps limit (d.lines rest) ⟨rows, fields, field ++ c :: text, .inField⟩
              else none := by
        intro hfits
        rw [ih hplain.2 (by simpa [Nat.succ_le_iff] using hfits), List.append_assoc,
          List.singleton_append]
      rw [hstep, ← fits_cons c text]
      exact ite_congr rfl hih fun _ => rfl

/-- What ends a field: the delimiter, or the end of the line. -/
inductive Ends (d : Dialect α) : α → State → Prop where
  | delimiter : Ends d d.delimiter .startField
  | cr : Ends d d.cr .eatCrnl

/-- A row starts like a field that is not empty. -/
inductive Starts : State → List α → State → Prop where
  | field (text : List α) (next : State) : Starts .startField text next
  | record (text : List α) : Starts .startRecord text .startField
  | nonempty {text : List α} (next : State) (h : text ≠ []) : Starts .startRecord text next

variable {next : State}

lemma process_ends (h : Ends d c next)
    (hstate : state = .startField ∨ state = .inField ∨ state = .quoteInQuotedField) :
    d.process limit ⟨rows, fields, field, state⟩ c = some ⟨rows, fields ++ [field], [], next⟩ := by
  have hdelimiter : ¬ (d.delimiter = d.lf ∨ d.delimiter = d.cr) := by
    simp [d.lf_ne_delimiter.symm, d.cr_ne_delimiter.symm]
  cases h with
  | delimiter =>
      rcases hstate with rfl | rfl | rfl <;>
        simp [process, Dialect.startField, hdelimiter, d.quote_ne_delimiter.symm, Reader.save]
  | cr =>
      rcases hstate with rfl | rfl | rfl <;>
        simp [process, Dialect.startField, d.cr_ne_delimiter, d.cr_ne_quote, Reader.save]

/-- The first character of a field that is not empty. -/
lemma process_first (hstart : Starts state text next) (hc : c ≠ d.lf ∧ c ≠ d.cr) :
    d.process limit ⟨rows, fields, [], state⟩ c
      = d.startField limit ⟨rows, fields, [], state⟩ c := by
  cases hstart with
  | field => rfl
  | record => simp [process, hc]
  | nonempty => simp [process, hc]

/-- A field that has been written, with the character behind it. -/
lemma steps_field (hstart : Starts state text next) (hend : Ends d c next) {marks : List (Option α)}
    (hlines : d.lines (c :: rest) = some c :: marks) :
    d.steps limit (d.lines (d.writeField text ++ c :: rest)) ⟨rows, fields, [], state⟩
      = if text.length ≤ limit then d.steps limit marks ⟨rows, fields ++ [text], [], next⟩
        else none := by
  by_cases hspecial : text.any d.isSpecial = true
  · have hopen : d.process limit ⟨rows, fields, [], state⟩ d.quote
        = some ⟨rows, fields, [], .inQuotedField⟩ := by
      rw [process_first hstart ⟨d.lf_ne_quote.symm, d.cr_ne_quote.symm⟩]
      simp [Dialect.startField, d.lf_ne_quote.symm, d.cr_ne_quote.symm]
    rw [writeField, if_pos hspecial, List.cons_append, List.append_assoc, List.singleton_append,
      lines_cons d.lf_ne_quote.symm d.cr_ne_quote.symm (by simp), steps, hopen, Option.bind_some,
      steps_quoted text (by simp) (Nat.zero_le _), hlines, List.nil_append,
      List.length_nil, Nat.zero_add, steps, process_ends hend (.inr (.inr rfl)), Option.bind_some]
  · rw [writeField, if_neg hspecial]
    have hplain : ∀ c ∈ text, d.isSpecial c = false := by
      simpa using hspecial
    cases text with
    | nil =>
        rw [List.nil_append, hlines, steps, List.length_nil, if_pos (Nat.zero_le _)]
        cases hstart with
        | field => rw [process_ends hend (.inl rfl), Option.bind_some]
        | record =>
            cases hend with
            | delimiter =>
                have hempty : d.process limit ⟨rows, fields, [], .startRecord⟩ d.delimiter
                    = some ⟨rows, fields ++ [[]], [], .startField⟩ := by
                  simp [process, Dialect.startField, d.lf_ne_delimiter.symm, d.cr_ne_delimiter.symm,
                    d.quote_ne_delimiter.symm, Reader.save]
                rw [hempty, Option.bind_some]
        | nonempty _ h => exact absurd rfl h
    | cons c' text =>
        rw [List.forall_mem_cons] at hplain
        have hc := hplain.1
        simp only [isSpecial, decide_eq_false_iff_not, not_or] at hc
        have hfirst : d.process limit ⟨rows, fields, [], state⟩ c'
            = if 0 < limit then some ⟨rows, fields, [c'], .inField⟩ else none := by
          rw [process_first hstart ⟨hc.2.2.2, hc.2.2.1⟩]
          simp [Dialect.startField, hc, Reader.add]
        rw [List.cons_append, lines_cons hc.2.2.2 hc.2.2.1 (by simp), steps, hfirst]
        by_cases hlimit : 0 < limit
        · rw [if_pos hlimit, Option.bind_some, steps_plain text hplain.2 (by simp) hlimit, hlines,
            List.singleton_append, steps, process_ends hend (.inr (.inl rfl)), Option.bind_some,
            List.length_singleton, List.length_cons, Nat.add_comm]
        · rw [if_neg hlimit, if_neg (by simp only [List.length_cons]; omega)]
          rfl

/-! ## Rows -/

/-- The end of a row. -/
lemma steps_eol :
    d.steps limit (d.lines (d.lf :: text)) ⟨rows, fields, [], .eatCrnl⟩
      = d.steps limit (d.lines text) ⟨rows ++ [fields], [], [], .startRecord⟩ := by
  have hprocess : d.process limit ⟨rows, fields, [], .eatCrnl⟩ d.lf
      = some ⟨rows, fields, [], .eatCrnl⟩ := by
    simp [process]
  have hlines : d.lines (d.lf :: text) = some d.lf :: none :: d.lines text := by
    cases text with
    | nil => rfl
    | cons c text => rw [lines, if_pos (.inl rfl)]
  rw [hlines, steps, hprocess]
  rfl

lemma lines_cr : d.lines (d.cr :: d.lf :: text) = some d.cr :: d.lines (d.lf :: text) := by
  rw [lines, if_neg (by simp [d.cr_ne_lf])]

/-- No field of the row has more characters. -/
def Fits (limit : ℕ) (row : List (List α)) : Prop := ∀ field ∈ row, field.length ≤ limit

instance (row : List (List α)) : Decidable (Fits limit row) :=
  inferInstanceAs (Decidable (∀ field ∈ row, field.length ≤ limit))

lemma steps_fields (first : List α) (others : List (List α))
    (hstart : state = .startField ∨ state = .startRecord ∧ first :: others ≠ [[]]) :
    d.steps limit (d.lines (d.writeFields (first :: others) ++ d.cr :: d.lf :: text))
        ⟨rows, fields, [], state⟩
      = if Fits limit (first :: others) then
          d.steps limit (d.lines text) ⟨rows ++ [fields ++ first :: others], [], [], .startRecord⟩
        else none := by
  induction others generalizing first fields state with
  | nil =>
      have hfirst : Starts state first .eatCrnl := by
        rcases hstart with rfl | ⟨rfl, h⟩
        · exact .field _ _
        · exact .nonempty _ fun hnil => h (by rw [hnil])
      rw [writeFields, steps_field hfirst .cr lines_cr, steps_eol]
      simp only [Fits, List.forall_mem_singleton]
  | cons second others ih =>
      have hfirst : Starts state first .startField := by
        rcases hstart with rfl | ⟨rfl, h⟩
        · exact .field _ _
        · exact .record _
      have hfits : Fits limit (first :: second :: others)
          ↔ first.length ≤ limit ∧ Fits limit (second :: others) := List.forall_mem_cons
      rw [writeFields, List.append_assoc, List.cons_append,
        steps_field hfirst .delimiter
          (lines_cons d.lf_ne_delimiter.symm d.cr_ne_delimiter.symm (by simp)),
        ih second (.inl rfl), List.append_assoc, List.singleton_append]
      simp only [hfits, ite_and]

lemma steps_row (row : List (List α)) :
    d.steps limit (d.lines (d.writeRow row ++ text)) ⟨rows, [], [], .startRecord⟩
      = if Fits limit row then d.steps limit (d.lines text) ⟨rows ++ [row], [], [], .startRecord⟩
        else none := by
  by_cases hrow : row = [[]]
  · have hquoted : d.steps limit (d.lines (d.escape [] ++ d.quote :: d.cr :: d.lf :: text))
        ⟨rows, [], [], .inQuotedField⟩
          = if 0 + 0 ≤ limit then
              d.steps limit (d.lines (d.cr :: d.lf :: text))
                ⟨rows, [], [] ++ [], .quoteInQuotedField⟩
            else none :=
      steps_quoted [] (by simp) (Nat.zero_le _)
    have hopen : d.process limit ⟨rows, [], [], .startRecord⟩ d.quote
        = some ⟨rows, [], [], .inQuotedField⟩ := by
      simp [process, Dialect.startField, d.lf_ne_quote.symm, d.cr_ne_quote.symm]
    have hfits : Fits limit row := by
      rw [hrow, Fits, List.forall_mem_singleton]
      exact Nat.zero_le _
    rw [if_pos (Nat.zero_le _), escape, List.flatMap_nil, List.nil_append,
      List.append_nil, lines_cr, steps, process_ends .cr (.inr (.inr rfl)), Option.bind_some,
      steps_eol] at hquoted
    rw [if_pos hfits, writeRow, if_pos hrow, hrow, List.append_assoc, List.cons_append,
      List.singleton_append, lines_cons d.lf_ne_quote.symm d.cr_ne_quote.symm (by simp), steps,
      hopen, Option.bind_some]
    exact hquoted
  · rw [writeRow, if_neg hrow, List.append_assoc, List.cons_append, List.singleton_append]
    cases row with
    | nil =>
        have hcr : d.process limit ⟨rows, [], [], .startRecord⟩ d.cr
            = some ⟨rows, [], [], .eatCrnl⟩ := by
          simp [process]
        rw [writeFields, List.nil_append, lines_cr, steps, hcr, Option.bind_some, steps_eol,
          if_pos (by simp [Fits])]
    | cons first others => rw [steps_fields first others (.inr ⟨rfl, hrow⟩), List.nil_append]

lemma steps_rows (rows' : List (List (List α))) :
    d.steps limit (d.lines (d.writeRows rows')) ⟨rows, [], [], .startRecord⟩
      = if ∀ row ∈ rows', Fits limit row then some ⟨rows ++ rows', [], [], .startRecord⟩
        else none := by
  induction rows' generalizing rows with
  | nil =>
      rw [List.append_nil, if_pos (by simp)]
      rfl
  | cons row rows' ih =>
      have hrows : d.steps limit (d.lines (d.writeRows rows')) ⟨rows ++ [row], [], [], .startRecord⟩
          = if ∀ row ∈ rows', Fits limit row then
              some ⟨rows ++ [row] ++ rows', [], [], .startRecord⟩
            else none := ih
      rw [List.append_assoc, List.singleton_append] at hrows
      rw [writeRows, List.flatMap_cons, steps_row]
      simp only [List.forall_mem_cons, ite_and]
      exact ite_congr rfl (fun _ => hrows) fun _ => rfl

/-- **What has been written is read back**, whatever the fields hold, exactly if none is too
long. -/
theorem read_writeRows (rows : List (List (List α))) :
    d.read limit (d.writeRows rows) = if ∀ row ∈ rows, Fits limit row then some rows else none := by
  have hsteps : d.steps limit (d.lines (d.writeRows rows)) {}
      = if ∀ row ∈ rows, Fits limit row then some ⟨rows, [], [], .startRecord⟩ else none :=
    steps_rows rows
  rw [read, hsteps]
  split_ifs
  · rfl
  · rfl

/-- Other rows have another text. -/
theorem writeRows_injective : Function.Injective d.writeRows := by
  intro rows rows' h
  -- a limit under which all fields fit
  obtain ⟨limit, hfits⟩ : ∃ limit, ∀ row ∈ rows ++ rows', Fits limit row := by
    refine ⟨((rows ++ rows').flatten.map List.length).sum, fun row hrow field hfield => ?_⟩
    exact List.single_le_sum (fun _ _ => Nat.zero_le _) _
      (List.mem_map_of_mem (List.mem_flatten.mpr ⟨row, hrow, hfield⟩))
  rw [List.forall_mem_append] at hfits
  have hread : d.read limit (d.writeRows rows) = _ := read_writeRows rows
  rw [h, read_writeRows, if_pos hfits.1, if_pos hfits.2] at hread
  exact (Option.some.inj hread).symm

end Dialect

end Library.Csv
