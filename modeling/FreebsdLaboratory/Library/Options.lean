import Mathlib.Data.List.Basic

/-!
# Command lines with options

How `getopt` takes an argument list apart: options with one letter, with or without an argument of
their own, up to the first argument that is none.  Which letters there are, and which of them take
an argument, is given.
-/

namespace Library.Options

/-- An option on the command line, with its argument. -/
abbrev Flag := Char × Option (List Char)

/-- The letters behind one `-`, and the letter that is still without its argument. -/
def cluster (takesArgument : Char → Option Bool) : List Char → Option (List Flag × Option Char)
  | [] => some ([], none)
  | c :: cs =>
      match takesArgument c with
      | none => none
      | some true => if cs = [] then some ([], some c) else some ([(c, some cs)], none)
      | some false =>
          (cluster takesArgument cs).map fun (flags, open?) => ((c, none) :: flags, open?)

/-- The options in front, and what follows them. -/
def getopt (takesArgument : Char → Option Bool) :
    List (List Char) → Option (List Flag × List (List Char))
  | [] => some ([], [])
  | [] :: rest => some ([], [] :: rest)
  | (c :: cs) :: rest =>
      if c ≠ '-' ∨ cs = [] then some ([], (c :: cs) :: rest)
      else if cs = ['-'] then some ([], rest)
      else match cluster takesArgument cs with
        | none => none
        | some (flags, none) =>
            (getopt takesArgument rest).map fun (later, operands) => (flags ++ later, operands)
        | some (flags, some letter) =>
            match rest with
            | [] => none
            | value :: rest => (getopt takesArgument rest).map fun (later, operands) =>
                (flags ++ (letter, some value) :: later, operands)

/-! ## Writing a command line -/

variable {takesArgument : Char → Option Bool}

/-- An option as an argument of its own, and its argument behind it. -/
def render (flag : Flag) : List (List Char) := ['-', flag.1] :: flag.2.toList

/-- The letter is known, and has an argument if it takes one. -/
def Known (takesArgument : Char → Option Bool) (flag : Flag) : Prop :=
  flag.1 ≠ '-' ∧ takesArgument flag.1 = some flag.2.isSome

lemma cluster_switch {letter : Char} (h : takesArgument letter = some false) :
    cluster takesArgument [letter] = some ([(letter, none)], none) := by
  rw [cluster, h]
  rfl

lemma cluster_argument {letter : Char} (h : takesArgument letter = some true) :
    cluster takesArgument [letter] = some ([], some letter) := by
  rw [cluster, h]
  rfl

lemma getopt_render_cons {flag : Flag} (h : Known takesArgument flag) (rest : List (List Char)) :
    getopt takesArgument (render flag ++ rest)
      = (getopt takesArgument rest).map fun (later, operands) => (flag :: later, operands) := by
  obtain ⟨letter, value⟩ := flag
  obtain ⟨hletter, hknown⟩ := h
  have hoption : ¬ ('-' ≠ '-' ∨ [letter] = []) := by
    rintro (h | h)
    · exact h rfl
    · cases h
  have hend : [letter] ≠ ['-'] := fun h => hletter (List.cons.inj h).1
  cases value with
  | none =>
      change getopt takesArgument (['-', letter] :: rest) = _
      rw [getopt, if_neg hoption, if_neg hend, cluster_switch hknown]
      rfl
  | some value =>
      change getopt takesArgument (['-', letter] :: value :: rest) = _
      rw [getopt, if_neg hoption, if_neg hend, cluster_argument hknown]
      rfl

/-- An argument without a dash ends the options. -/
lemma getopt_operand {operand : List Char} (h : operand.head? ≠ some '-')
    (operands : List (List Char)) :
    getopt takesArgument (operand :: operands) = some ([], operand :: operands) := by
  cases operand with
  | nil => rfl
  | cons c cs =>
      have hc : c ≠ '-' := fun heq => h (congrArg some heq)
      rw [getopt, if_pos (.inl hc)]

/-- **Options that are written one by one are read as they were**, up to the first operand. -/
theorem getopt_render {flags : List Flag} (h : ∀ flag ∈ flags, Known takesArgument flag)
    {operand : List Char} (hoperand : operand.head? ≠ some '-') (operands : List (List Char)) :
    getopt takesArgument (flags.flatMap render ++ operand :: operands)
      = some (flags, operand :: operands) := by
  induction flags with
  | nil => exact getopt_operand hoperand operands
  | cons flag flags ih =>
      rw [List.forall_mem_cons] at h
      rw [List.flatMap_cons, List.append_assoc, getopt_render_cons h.1, ih h.2]
      rfl

end Library.Options
