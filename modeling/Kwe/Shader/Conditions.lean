import Kwe.Foundation.Chains
import Kwe.Foundation.SortedMap

/-!
The conditions of `#if` and `#elif`: the tokenizer and the parser of
`evaluate_if_expr`, and the grammar that they are compared with.

The source works on bytes; a character above 127 begins with a byte that is no
blank and starts no token, so here it is refused as a whole.
-/

namespace Kwe.Shader

open Foundation Foundation.Chains

abbrev Text := List Char

/-- The combos by their names, in order. -/
abbrev Combos := List (Text × Int)

def maxIfExprDepth : Nat := 32

def maxIfExprTokens : Nat := 256

/-! ## Tokens -/

inductive Token
  | ident (name : Text)
  | num (n : Nat)
  | and | or
  | eq | ne
  | lt | le | gt | ge
  | not
  | lparen | rparen
  deriving DecidableEq, Repr

/-- `is_whitespace` of a byte below 128. -/
def isWhitespace (c : Char) : Bool := (9 ≤ c.toNat && c.toNat ≤ 13) || c = ' '

def isWordStart (c : Char) : Bool := c.isAlpha || c = '_'

def isWordChar (c : Char) : Bool := c.isAlphanum || c = '_'

/-- A number or an identifier; a number must fit an `i64`. -/
def wordToken (c : Char) (rest : Text) : Option (Token × Text) :=
  if c.isDigit then
    let n := Nat.ofDigitChars 10 ((c :: rest).takeWhile Char.isDigit) 0
    if n < 2 ^ 63 then some (.num n, (c :: rest).dropWhile Char.isDigit) else none
  else if isWordStart c then
    some (.ident ((c :: rest).takeWhile isWordChar), (c :: rest).dropWhile isWordChar)
  else none

def nextToken (c : Char) (rest : Text) : Option (Token × Text) :=
  match c, rest with
  | '(', rest => some (.lparen, rest)
  | ')', rest => some (.rparen, rest)
  | '&', '&' :: rest => some (.and, rest)
  | '|', '|' :: rest => some (.or, rest)
  | '=', '=' :: rest => some (.eq, rest)
  | '!', '=' :: rest => some (.ne, rest)
  | '!', rest => some (.not, rest)
  | '<', '=' :: rest => some (.le, rest)
  | '<', rest => some (.lt, rest)
  | '>', '=' :: rest => some (.ge, rest)
  | '>', rest => some (.gt, rest)
  | c, rest => wordToken c rest

/-- The loop of `tokenize`, after `count` tokens. -/
def tokenizeFrom : Nat → Nat → Text → Option (List Token)
  | _, _, [] => some []
  | 0, _, _ :: _ => none
  | fuel + 1, count, c :: rest =>
    if isWhitespace c then tokenizeFrom fuel count rest
    else if maxIfExprTokens ≤ count then none
    else
      match nextToken c rest with
      | none => none
      | some (t, rest) => (tokenizeFrom fuel (count + 1) rest).map (t :: ·)

def tokenize (expr : Text) : Option (List Token) := tokenizeFrom expr.length 0 expr

/-! ## The parser -/

/-- Why there is no value: the expression is refused, or the calls nest deeper
than they were allowed to. -/
inductive Stop
  | refused
  | callDepth
  deriving DecidableEq, Repr

abbrev Operator := Int → Int → Int

def ofBool (b : Bool) : Int := if b then 1 else 0

def orOperator : Token → Option Operator
  | .or => some fun lhs rhs => ofBool (lhs ≠ 0 || rhs ≠ 0)
  | _ => none

def andOperator : Token → Option Operator
  | .and => some fun lhs rhs => ofBool (lhs ≠ 0 && rhs ≠ 0)
  | _ => none

def eqOperator : Token → Option Operator
  | .eq => some fun lhs rhs => ofBool (lhs = rhs)
  | .ne => some fun lhs rhs => ofBool (lhs ≠ rhs)
  | _ => none

def relOperator : Token → Option Operator
  | .lt => some fun lhs rhs => ofBool (lhs < rhs)
  | .le => some fun lhs rhs => ofBool (lhs ≤ rhs)
  | .gt => some fun lhs rhs => ofBool (lhs > rhs)
  | .ge => some fun lhs rhs => ofBool (lhs ≥ rhs)
  | _ => none

def lookup (combosUpper : Combos) (name : Text) : Int := (SortedMap.get combosUpper name).getD 0

/-- What is left of the tokens, and `depth`. -/
abbrev IfParser := Parser Token Nat Int Stop

/-- `defined` and its operand. -/
def definedExpr (combosUpper : Combos) : IfParser
  | .lparen :: .ident target :: .rparen :: rest, depth =>
    .ok (ofBool (SortedMap.get combosUpper target).isSome, rest, depth)
  | .ident target :: rest, depth =>
    .ok (ofBool (SortedMap.get combosUpper target).isSome, rest, depth)
  | _, _ => .error .refused

section Parser

variable (combosUpper : Combos)

mutual

/-- The first argument of each of these is the number of calls that may still
nest. -/
def orExpr : Nat → IfParser
  | 0, _, _ => .error .callDepth
  | calls + 1, ts, depth =>
    if maxIfExprDepth < depth + 1 then .error .refused
    else chain orOperator (fun ts depth => andExpr calls ts depth) ts (depth + 1)
termination_by structural calls => calls

def andExpr : Nat → IfParser
  | 0, _, _ => .error .callDepth
  | calls + 1, ts, depth => chain andOperator (fun ts depth => eqExpr calls ts depth) ts depth
termination_by structural calls => calls

def eqExpr : Nat → IfParser
  | 0, _, _ => .error .callDepth
  | calls + 1, ts, depth => chain eqOperator (fun ts depth => relExpr calls ts depth) ts depth
termination_by structural calls => calls

def relExpr : Nat → IfParser
  | 0, _, _ => .error .callDepth
  | calls + 1, ts, depth => chain relOperator (fun ts depth => unaryExpr calls ts depth) ts depth
termination_by structural calls => calls

def unaryExpr : Nat → IfParser
  | 0, _, _ => .error .callDepth
  | calls + 1, .not :: ts, depth =>
    if maxIfExprDepth < depth + 1 then .error .refused
    else
      match unaryExpr calls ts (depth + 1) with
      | .error e => .error e
      | .ok (v, ts, depth) => .ok (ofBool (v = 0), ts, depth)
  | calls + 1, ts, depth => primaryExpr calls ts depth
termination_by structural calls => calls

def primaryExpr : Nat → IfParser
  | 0, _, _ => .error .callDepth
  | _ + 1, .num n :: ts, depth => .ok (n, ts, depth)
  | _ + 1, .ident name :: ts, depth =>
    if name = "defined".toList then definedExpr combosUpper ts depth
    else .ok (lookup combosUpper name, ts, depth)
  | calls + 1, .lparen :: ts, depth =>
    match orExpr calls ts depth with
    | .error e => .error e
    | .ok (v, .rparen :: ts, depth) => .ok (v, ts, depth)
    | .ok _ => .error .refused
  | _ + 1, _, _ => .error .refused
termination_by structural calls => calls

end

/-- `evaluate_if_expr`, with at most `calls` nested calls. -/
def evaluateIfExpr (calls : Nat) (expr : Text) : Except Stop Bool :=
  match tokenize expr with
  | none => .error .refused
  | some tokens =>
    match orExpr combosUpper calls tokens 0 with
    | .error e => .error e
    | .ok (value, [], _) => .ok (value ≠ 0)
    | .ok _ => .error .refused

end Parser

/-! ## The grammar -/

/-- The digits of a decimal constant of C. -/
def decimalConstant (digits : List Char) : Bool := digits = ['0'] || digits.head? ≠ some '0'

/-- How a token is spelled, where `decimal` tells which digits are a number. -/
inductive Spells (decimal : List Char → Bool) : Token → List Char → Prop
  | num {digits : List Char} : digits ≠ [] → (∀ d ∈ digits, d.isDigit = true) →
      decimal digits = true → Spells decimal (.num (Nat.ofDigitChars 10 digits 0)) digits
  | ident {c : Char} {word : List Char} : isWordStart c = true →
      (∀ d ∈ word, isWordChar d = true) →
      Spells decimal (.ident (c :: word)) (c :: word)
  | and : Spells decimal .and ['&', '&']
  | or : Spells decimal .or ['|', '|']
  | eq : Spells decimal .eq ['=', '=']
  | ne : Spells decimal .ne ['!', '=']
  | lt : Spells decimal .lt ['<']
  | le : Spells decimal .le ['<', '=']
  | gt : Spells decimal .gt ['>']
  | ge : Spells decimal .ge ['>', '=']
  | not : Spells decimal .not ['!']
  | lparen : Spells decimal .lparen ['(']
  | rparen : Spells decimal .rparen [')']

/-- With this character the token would be longer. -/
def Token.continues (t : Token) (c : Char) : Bool :=
  match t with
  | .num _ => c.isDigit
  | .ident _ => isWordChar c
  | .not | .lt | .gt => c = '='
  | _ => false

/-- The tokens of a text, each of them as long as possible. -/
inductive Lexes (decimal : List Char → Bool) : List Char → List Token → Prop
  | nil : Lexes decimal [] []
  | blank {c : Char} {text : List Char} {ts : List Token} : isWhitespace c = true →
      Lexes decimal text ts → Lexes decimal (c :: text) ts
  | token {t : Token} {word text : List Char} {ts : List Token} : Spells decimal t word →
      (∀ c ∈ text.head?, t.continues c = false) → Lexes decimal text ts →
      Lexes decimal (word ++ text) (t :: ts)

/-- The levels of precedence. -/
inductive Level
  | or | and | eq | rel | unary | primary
  deriving DecidableEq, Repr

/-- What the tokens derive at a level, and its value. -/
inductive Derives (combosUpper : Combos) : Level → List Token → Int → Prop
  | orOperand {ts v} : Derives combosUpper .and ts v → Derives combosUpper .or ts v
  | or {ts us v w} : Derives combosUpper .or ts v → Derives combosUpper .and us w →
      Derives combosUpper .or (ts ++ .or :: us) (ofBool (v ≠ 0 || w ≠ 0))
  | andOperand {ts v} : Derives combosUpper .eq ts v → Derives combosUpper .and ts v
  | and {ts us v w} : Derives combosUpper .and ts v → Derives combosUpper .eq us w →
      Derives combosUpper .and (ts ++ .and :: us) (ofBool (v ≠ 0 && w ≠ 0))
  | eqOperand {ts v} : Derives combosUpper .rel ts v → Derives combosUpper .eq ts v
  | eq {ts us v w} : Derives combosUpper .eq ts v → Derives combosUpper .rel us w →
      Derives combosUpper .eq (ts ++ .eq :: us) (ofBool (v = w))
  | ne {ts us v w} : Derives combosUpper .eq ts v → Derives combosUpper .rel us w →
      Derives combosUpper .eq (ts ++ .ne :: us) (ofBool (v ≠ w))
  | relOperand {ts v} : Derives combosUpper .unary ts v → Derives combosUpper .rel ts v
  | lt {ts us v w} : Derives combosUpper .rel ts v → Derives combosUpper .unary us w →
      Derives combosUpper .rel (ts ++ .lt :: us) (ofBool (v < w))
  | le {ts us v w} : Derives combosUpper .rel ts v → Derives combosUpper .unary us w →
      Derives combosUpper .rel (ts ++ .le :: us) (ofBool (v ≤ w))
  | gt {ts us v w} : Derives combosUpper .rel ts v → Derives combosUpper .unary us w →
      Derives combosUpper .rel (ts ++ .gt :: us) (ofBool (v > w))
  | ge {ts us v w} : Derives combosUpper .rel ts v → Derives combosUpper .unary us w →
      Derives combosUpper .rel (ts ++ .ge :: us) (ofBool (v ≥ w))
  | unaryOperand {ts v} : Derives combosUpper .primary ts v → Derives combosUpper .unary ts v
  | not {ts v} : Derives combosUpper .unary ts v →
      Derives combosUpper .unary (.not :: ts) (ofBool (v = 0))
  | num (n : Nat) : Derives combosUpper .primary [.num n] n
  | ident {name : Text} : name ≠ "defined".toList →
      Derives combosUpper .primary [.ident name] (lookup combosUpper name)
  | defined (target : Text) :
      Derives combosUpper .primary [.ident "defined".toList, .ident target]
        (ofBool (SortedMap.get combosUpper target).isSome)
  | definedIn (target : Text) :
      Derives combosUpper .primary [.ident "defined".toList, .lparen, .ident target, .rparen]
        (ofBool (SortedMap.get combosUpper target).isSome)
  | paren {ts v} : Derives combosUpper .or ts v →
      Derives combosUpper .primary (.lparen :: ts ++ [.rparen]) v

/-- The tokens that open a group or negate. -/
def isBracket (t : Token) : Bool := t = .lparen || t = .not

end Kwe.Shader
