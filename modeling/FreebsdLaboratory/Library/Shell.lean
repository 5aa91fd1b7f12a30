import Mathlib.Data.List.Basic

/-!
# Shell commands

The part of the POSIX shell's language in which programs write commands for another host: words with
quoting, `&&` and one redirection of the output.  `tokens` reads a text and gives up, with `none`,
at every unquoted character that means anything else to a shell: expansions, patterns, comments and
the other operators are outside the language, not taken for text.

A text is put together from pieces.  `Piece` says what a part of a word adds to the word, `Reads`
what a text between blanks is read as; both are closed under concatenation, so that a command is
read part by part.
-/

namespace Library.Shell

/-- The characters that mean nothing to a shell, wherever in a word they stand. -/
def isPlain (c : Char) : Bool := c.isAlphanum || "_@%+=:,./-".toList.contains c

inductive Token where
  | word (text : List Char)
  /-- `&&` -/
  | andIf
  /-- `>` -/
  | great
  deriving DecidableEq

/-- Where the reader is. -/
inductive Mode where
  | blank
  | word (text : List Char)
  | single (text : List Char)
  | double (text : List Char)
  /-- Behind the first `&`. -/
  | ampersand
  /-- Behind `>`, which a blank has to follow. -/
  | great

/-- What one character does: the tokens that end in front of it, and where the reader is behind
it. -/
def step (mode : Mode) (c : Char) : Option (List Token × Mode) :=
  match mode with
  | .blank =>
      if c = ' ' then some ([], .blank)
      else if c = '\'' then some ([], .single [])
      else if c = '"' then some ([], .double [])
      else if c = '&' then some ([], .ampersand)
      else if c = '>' then some ([], .great)
      else if isPlain c then some ([], .word [c])
      else none
  | .word text =>
      if c = ' ' then some ([.word text], .blank)
      else if c = '\'' then some ([], .single text)
      else if c = '"' then some ([], .double text)
      else if isPlain c then some ([], .word (text ++ [c]))
      else none
  | .single text => some ([], if c = '\'' then .word text else .single (text ++ [c]))
  | .double text =>
      if c = '"' then some ([], .word text)
      else if c = '$' ∨ c = '\x60' ∨ c = '\\' then none
      else some ([], .double (text ++ [c]))
  | .ampersand => if c = '&' then some ([.andIf], .blank) else none
  | .great => if c = ' ' then some ([.great], .blank) else none

/-- The token that ends with the text. -/
def finish : Mode → Option (List Token)
  | .blank => some []
  | .word text => some [.word text]
  | .great => some [.great]
  | .single _ | .double _ | .ampersand => none

/-- The tokens of a text. -/
def tokens (mode : Mode) : List Char → Option (List Token)
  | [] => finish mode
  | c :: cs =>
      match step mode c with
      | some (done, mode) => (tokens mode cs).map (done ++ ·)
      | none => none

/-! ## Commands -/

/-- A simple command, with the file its output goes to. -/
structure Simple where
  words : List (List Char)
  output : Option (List Char) := none
  deriving DecidableEq

def reservedWords : List (List Char) :=
  ["if", "then", "else", "elif", "fi", "do", "done", "case", "esac", "while", "until",
    "for", "in"].map
    String.toList

/-- `NAME=…`, which in front of a command is an assignment. -/
def isAssignment (word : List Char) : Bool :=
  let name := word.takeWhile (· ≠ '=')
  word.contains '=' && name.all (fun c => c.isAlphanum || c = '_') && !name.isEmpty

/-- The words of a command that begins with its name. -/
def close (words : List (List Char)) (output : Option (List Char)) : Option Simple :=
  match words with
  | [] => none
  | name :: _ =>
      if reservedWords.contains name ∨ isAssignment name then none else some ⟨words, output⟩

/-- The commands between the `&&`, from the words and the redirection of the first one on. -/
def parse : List (List Char) → Option (List Char) → List Token → Option (List Simple)
  | words, output, [] => (close words output).map ([·])
  | words, output, .andIf :: ts =>
      (close words output).bind fun command => (parse [] none ts).map (command :: ·)
  | words, none, .great :: .word path :: ts => parse words (some path) ts
  | _, _, .great :: _ => none
  | words, output, .word text :: ts => parse (words ++ [text]) output ts

/-- What a shell runs when it is given a text, each command after the success of the one before. -/
def script (text : List Char) : Option (List Simple) := (tokens .blank text).bind (parse [] none)

/-! ## Quoting -/

/-- A character of a quoted word: a quote leaves the quotes, and stands in double quotes. -/
def quoteChar (c : Char) : List Char := if c = '\'' then ['\'', '"', '\'', '"', '\''] else [c]

/-- The word in quotes. -/
def quote (word : List Char) : List Char :=
  if word ≠ [] ∧ word.all isPlain then word else '\'' :: (word.flatMap quoteChar ++ ['\''])

/-- `cs` adds `w` to the word it stands in, and begins one between blanks. -/
structure Piece (cs w : List Char) : Prop where
  within : ∀ text rest, tokens (.word text) (cs ++ rest) = tokens (.word (text ++ w)) rest
  first : ∀ rest, tokens .blank (cs ++ rest) = tokens (.word w) rest

lemma isPlain_ne {c : Char} (h : isPlain c = true) :
    c ≠ ' ' ∧ c ≠ '\'' ∧ c ≠ '"' ∧ c ≠ '&' ∧ c ≠ '>' := by
  refine ⟨?_, ?_, ?_, ?_, ?_⟩ <;> rintro rfl <;> exact absurd h (by decide)

/-- A character behind which the reader goes on. -/
lemma tokens_of_step {mode mode' : Mode} {c : Char} (h : step mode c = some ([], mode'))
    (cs : List Char) : tokens mode (c :: cs) = tokens mode' cs := by
  change (match step mode c with
    | some (done, mode) => (tokens mode cs).map (done ++ ·)
    | none => none) = _
  rw [h]
  cases hcs : tokens mode' cs with
  | none => exact congrArg (Option.map _) hcs
  | some ts => exact congrArg (Option.map _) hcs

/-- A character that ends a token. -/
lemma tokens_of_token {mode mode' : Mode} {c : Char} {t : Token}
    (h : step mode c = some ([t], mode'))
    (cs : List Char) : tokens mode (c :: cs) = (tokens mode' cs).map (t :: ·) := by
  change (match step mode c with
    | some (done, mode) => (tokens mode cs).map (done ++ ·)
    | none => none) = _
  rw [h]
  rfl

lemma step_plain {c : Char} (h : isPlain c = true) (text : List Char) :
    step .blank c = some ([], .word [c])
      ∧ step (.word text) c = some ([], .word (text ++ [c])) := by
  obtain ⟨hspace, hsingle, hdouble, hamp, hgreat⟩ := isPlain_ne h
  exact
    ⟨by simp only [step, if_neg hspace, if_neg hsingle, if_neg hdouble, if_neg hamp, if_neg hgreat,
      if_pos h],
    by simp only [step, if_neg hspace, if_neg hsingle, if_neg hdouble, if_pos h]⟩

lemma tokens_word_plain {w : List Char} (h : w.all isPlain = true) (text rest : List Char) :
    tokens (.word text) (w ++ rest) = tokens (.word (text ++ w)) rest := by
  induction w generalizing text with
  | nil => rw [List.nil_append, List.append_nil]
  | cons c w ih =>
      rw [List.all_cons, Bool.and_eq_true] at h
      rw [List.cons_append, tokens_of_step (step_plain h.1 text).2, ih h.2, List.append_assoc]
      rfl

/-- A word of plain characters stands for itself. -/
theorem piece_plain {w : List Char} (hne : w ≠ []) (h : w.all isPlain = true) : Piece w w where
  within := tokens_word_plain h
  first rest := by
    cases w with
    | nil => exact absurd rfl hne
    | cons c w =>
        rw [List.all_cons, Bool.and_eq_true] at h
        rw [List.cons_append, tokens_of_step (step_plain h.1 []).1, tokens_word_plain h.2]
        rfl

lemma tokens_quoteChar (c : Char) (text rest : List Char) :
    tokens (.single text) (quoteChar c ++ rest) = tokens (.single (text ++ [c])) rest := by
  by_cases hc : c = '\''
  · subst hc
    -- out of the quotes, into double quotes and back
    change tokens (.single text) ('\'' :: '"' :: '\'' :: '"' :: '\'' :: rest) = _
    rw [tokens_of_step (show step (.single text) '\'' = some ([], .word text) from rfl),
      tokens_of_step (show step (.word text) '"' = some ([], .double text) from rfl),
      tokens_of_step (show step (.double text) '\'' = some ([], .double (text ++ ['\''])) from rfl),
      tokens_of_step (show step (.double (text ++ ['\''])) '"'
        = some ([], .word (text ++ ['\''])) from rfl),
      tokens_of_step (show step (.word (text ++ ['\''])) '\''
        = some ([], .single (text ++ ['\''])) from rfl)]
  · have hquote : quoteChar c = [c] := if_neg hc
    have hstep : step (.single text) c = some ([], .single (text ++ [c])) := by
      simp only [step, if_neg hc]
    rw [hquote, List.singleton_append, tokens_of_step hstep]

/-- Behind an opening quote. -/
lemma tokens_quoted (w text rest : List Char) :
    tokens (.single text) (w.flatMap quoteChar ++ '\'' :: rest)
      = tokens (.word (text ++ w)) rest := by
  induction w generalizing text with
  | nil =>
      rw [List.flatMap_nil, List.nil_append, List.append_nil]
      exact tokens_of_step (show step (.single text) '\'' = some ([], .word text) from rfl) rest
  | cons c w ih =>
      rw [List.flatMap_cons, List.append_assoc, tokens_quoteChar, ih, List.append_assoc]
      rfl

/-- **What is quoted is read as it was.** -/
theorem piece_quote (w : List Char) : Piece (quote w) w := by
  by_cases h : w ≠ [] ∧ w.all isPlain = true
  · rw [quote, if_pos h]
    exact piece_plain h.1 h.2
  · have hrest : ∀ rest, (w.flatMap quoteChar ++ ['\'']) ++ rest
      = w.flatMap quoteChar ++ '\'' :: rest :=
      fun rest => by rw [List.append_assoc, List.singleton_append]
    rw [quote, if_neg h]
    constructor
    · intro text rest
      rw [List.cons_append, hrest,
        tokens_of_step (show step (.word text) '\'' = some ([], .single text) from rfl),
        tokens_quoted]
    · intro rest
      rw [List.cons_append, hrest,
        tokens_of_step (show step .blank '\'' = some ([], .single []) from rfl), tokens_quoted,
        List.nil_append]

theorem Piece.append {cs ds w v : List Char} (h : Piece cs w) (h' : Piece ds v) :
    Piece (cs ++ ds) (w ++ v) where
  within text rest := by
    rw [List.append_assoc, h.within, h'.within, List.append_assoc]
  first rest := by
    rw [List.append_assoc, h.first, h'.within]

/-! ## Reading a text part by part -/

/-- Where a word can end. -/
def EndsWord (rest : List Char) : Prop := ∀ c ∈ rest.head?, c = ' '

/-- Between blanks, `cs` is read as `ts`. -/
def Reads (cs : List Char) (ts : List Token) : Prop :=
  ∀ rest, EndsWord rest → tokens .blank (cs ++ rest) = (tokens .blank rest).map (ts ++ ·)

lemma endsWord_nil : EndsWord [] := by simp [EndsWord]

lemma endsWord_blank (rest : List Char) : EndsWord (' ' :: rest) := by simp [EndsWord]

lemma tokens_blank (rest : List Char) : tokens .blank (' ' :: rest) = tokens .blank rest :=
  tokens_of_step (show step .blank ' ' = some ([], .blank) from rfl) rest

theorem Piece.reads {cs w : List Char} (h : Piece cs w) : Reads cs [.word w] := by
  intro rest hrest
  rw [h.first]
  cases rest with
  | nil => rfl
  | cons c rest =>
      obtain rfl : c = ' ' := hrest c rfl
      rw [tokens_blank,
        tokens_of_token (show step (.word w) ' ' = some ([.word w], .blank) from rfl)]
      rfl

lemma reads_andIf : Reads ['&', '&'] [.andIf] := by
  intro rest _
  change tokens .blank ('&' :: '&' :: rest) = _
  rw [tokens_of_step (show step .blank '&' = some ([], .ampersand) from rfl),
    tokens_of_token (show step .ampersand '&' = some ([.andIf], .blank) from rfl)]
  rfl

lemma reads_great : Reads ['>'] [.great] := by
  intro rest hrest
  change tokens .blank ('>' :: rest) = _
  rw [tokens_of_step (show step .blank '>' = some ([], .great) from rfl)]
  cases rest with
  | nil => rfl
  | cons c rest =>
      obtain rfl : c = ' ' := hrest c rfl
      rw [tokens_blank, tokens_of_token (show step .great ' ' = some ([.great], .blank) from rfl)]
      rfl

theorem Reads.append {cs ds : List Char} {ts us : List Token} (h : Reads cs ts) (h' : Reads ds us) :
    Reads (cs ++ ' ' :: ds) (ts ++ us) := by
  intro rest hrest
  rw [List.append_assoc, List.cons_append, h _ (endsWord_blank _), tokens_blank, h' rest hrest,
    Option.map_map]
  congr 1
  funext later
  exact (List.append_assoc ts us later).symm

/-- **Quoted words with blanks between them are read as the words.** -/
theorem reads_quoted_words (words : List (List Char)) (hne : words ≠ []) :
    Reads ([' '].intercalate (words.map quote)) (words.map .word) := by
  induction words with
  | nil => exact absurd rfl hne
  | cons w words ih =>
      have hfirst : Reads (quote w) [.word w] := (piece_quote w).reads
      cases words with
      | nil => simpa using hfirst
      | cons v words => simpa [List.intercalate] using hfirst.append (ih (by simp))

theorem Reads.tokens {cs : List Char} {ts : List Token} (h : Reads cs ts) :
    tokens .blank cs = some ts := by
  have hread := h [] endsWord_nil
  have hend : Shell.tokens .blank [] = some [] := rfl
  rw [List.append_nil, hend, Option.map_some, List.append_nil] at hread
  exact hread

/-! ## Commands, part by part -/

lemma parse_words (words vs : List (List Char)) (output : Option (List Char)) (ts : List Token) :
    parse words output (vs.map .word ++ ts) = parse (words ++ vs) output ts := by
  induction vs generalizing words with
  | nil => simp
  | cons v vs ih =>
      rw [List.map_cons, List.cons_append, parse, ih, List.append_assoc]
      rfl

/-- A command in front of `&&`. -/
lemma parse_command {words : List (List Char)} {command : Simple}
    (h : close words none = some command)
    (ts : List Token) :
    parse [] none (words.map .word ++ .andIf :: ts) = (parse [] none ts).map (command :: ·) := by
  rw [parse_words, List.nil_append, parse, h]
  rfl

/-- The last command. -/
lemma parse_last {words : List (List Char)} {command : Simple}
    (h : close words none = some command) :
    parse [] none (words.map .word) = some [command] := by
  have hparse := parse_words [] words none []
  rw [List.append_nil, List.nil_append, parse, h] at hparse
  exact hparse

/-- A path is neither a reserved word nor an assignment. -/
theorem close_of_path {name : List Char} (h : name.head? = some '/') (words : List (List Char))
    (output : Option (List Char)) : close (name :: words) output
    = some ⟨name :: words, output⟩ := by
  have hreserved : reservedWords.contains name = false := by
    have hheads : ∀ word ∈ reservedWords, word.head? ≠ some '/' := by decide
    by_contra hmem
    rw [Bool.not_eq_false, List.contains_iff_mem] at hmem
    exact hheads name hmem h
  have hassignment : isAssignment name = false := by
    cases name with
    | nil => cases h
    | cons c cs =>
        obtain rfl : c = '/' := by simpa using h
        simp [isAssignment]
  rw [close, hreserved, hassignment]
  rfl

end Library.Shell
