import MemoryArbiter.Json.Token

/-! # How JSON is written

The grammar of JSON, without a scanner in mind.  A text is a sequence of lexemes, one for each token
of the value, with blanks in front of each and at the end.  A string is written in parts; each part
stands for code units of 16 bits, and the string denotes the text that has these units, if there is
one.
-/

namespace MemoryArbiter.Json

/-! ### Blanks, marks and words -/

def Blanks (bs : List Char) : Prop := ∀ c ∈ bs, c ∈ [' ', '\t', '\n', '\r']

def marks : List (Token × Char) :=
  [(.openBrace, '{'), (.closeBrace, '}'), (.openBracket, '['), (.closeBracket, ']'),
    (.colon, ':'), (.comma, ',')]

def Token.IsMark (t : Token) : Prop := ∃ c, (t, c) ∈ marks

def words : List (Token × List Char) :=
  [(.null, ['n', 'u', 'l', 'l']), (.bool true, ['t', 'r', 'u', 'e']),
    (.bool false, ['f', 'a', 'l', 's', 'e'])]

/-! ### Numbers -/

def Digits (ds : List Char) : Prop := ds ≠ [] ∧ ∀ d ∈ ds, d.isDigit = true

inductive SpelledFraction : List Char → List Char → Prop
  | none : SpelledFraction [] []
  | some {ds : List Char} : Digits ds → SpelledFraction ds ('.' :: ds)

inductive SpelledExponent : Option (Bool × List Char) → List Char → Prop
  | none : SpelledExponent none []
  | unsigned {e : Char} {ds : List Char} : e = 'e' ∨ e = 'E' → Digits ds →
      SpelledExponent (some (false, ds)) (e :: ds)
  | plus {e : Char} {ds : List Char} : e = 'e' ∨ e = 'E' → Digits ds →
      SpelledExponent (some (false, ds)) (e :: '+' :: ds)
  | minus {e : Char} {ds : List Char} : e = 'e' ∨ e = 'E' → Digits ds →
      SpelledExponent (some (true, ds)) (e :: '-' :: ds)

/-- No zero stands in front of other digits. -/
inductive SpelledNumber (n : JsonNumber) : List Char → Prop
  | mk {fraction exponent : List Char} :
      Digits n.whole → (n.whole.head? = some '0' → n.whole = ['0']) →
      SpelledFraction n.fraction fraction → SpelledExponent n.exponent exponent →
      SpelledNumber n ((if n.negative then ['-'] else []) ++ (n.whole ++ (fraction ++ exponent)))

/-! ### Strings -/

/-- The code units of a character; a character beyond 16 bits has two. -/
def units (c : Char) : List Nat :=
  if c.toNat < 0x10000 then [c.toNat]
  else [0xD800 + (c.toNat - 0x10000) / 0x400, 0xDC00 + (c.toNat - 0x10000) % 0x400]

/-- What may stand behind a backslash, and the character that it means. -/
def escapes : List (Char × Char) :=
  [('"', '"'), ('\\', '\\'), ('/', '/'), ('b', '\x08'), ('f', '\x0c'), ('n', '\n'), ('r', '\r'),
    ('t', '\t')]

def SpelledHex (v : Nat) (c : Char) : Prop :=
  v < 16 ∧ (c = Nat.digitChar v ∨ c = (Nat.digitChar v).toUpper)

/-- A part of a string and the code units that it stands for. -/
inductive SpelledPart : List Nat → List Char → Prop
  | plain {c : Char} : 0x20 ≤ c.toNat → c ≠ '"' → c ≠ '\\' → SpelledPart (units c) [c]
  | escaped {c meant : Char} : (c, meant) ∈ escapes → SpelledPart (units meant) ['\\', c]
  | unit {u v w x : Nat} {a b c d : Char} :
      SpelledHex u a → SpelledHex v b → SpelledHex w c → SpelledHex x d →
      SpelledPart [0x1000 * u + 0x100 * v + 0x10 * w + x] ['\\', 'u', a, b, c, d]

inductive SpelledParts : List Nat → List Char → Prop
  | nil : SpelledParts [] []
  | cons {us vs : List Nat} {cs ds : List Char} : SpelledPart us cs → SpelledParts vs ds →
      SpelledParts (us ++ vs) (cs ++ ds)

/-- The code units are those of the text; there is no text with half a surrogate pair. -/
def Denotes (us : List Nat) (text : Option String) : Prop :=
  ∀ s, text = some s ↔ s.toList.flatMap units = us

/-! ### Texts -/

inductive Lexeme : Token → List Char → Prop
  | mark {t : Token} {c : Char} : (t, c) ∈ marks → Lexeme t [c]
  | word {t : Token} {cs : List Char} : (t, cs) ∈ words → Lexeme t cs
  | number {n : JsonNumber} {cs : List Char} : SpelledNumber n cs → Lexeme (.number n) cs
  | text {us : List Nat} {cs : List Char} {s : Option String} : SpelledParts us cs → Denotes us s →
      Lexeme (.text s) ('"' :: (cs ++ ['"']))

inductive Spelled : List Token → List Char → Prop
  | nil {bs : List Char} : Blanks bs → Spelled [] bs
  | cons {t : Token} {ts : List Token} {bs cs rest : List Char} : Blanks bs → Lexeme t cs →
      Spelled ts rest → Spelled (t :: ts) (bs ++ (cs ++ rest))

mutual

/-- The tokens of a value. -/
def tokens : Json → List Token
  | null => [.null]
  | bool b => [.bool b]
  | number n => [.number n]
  | text s => [.text s]
  | array items => .openBracket :: (itemTokens items ++ [.closeBracket])
  | object members => .openBrace :: (memberTokens members ++ [.closeBrace])

def itemTokens : List Json → List Token
  | [] => []
  | [v] => tokens v
  | v :: vs => tokens v ++ .comma :: itemTokens vs

def memberTokens : List (Option String × Json) → List Token
  | [] => []
  | [(name, v)] => .text name :: .colon :: tokens v
  | (name, v) :: ms => .text name :: .colon :: (tokens v ++ .comma :: memberTokens ms)

end

theorem itemTokens_cons_cons (v w : Json) (vs : List Json) :
    itemTokens (v :: w :: vs) = v.tokens ++ .comma :: itemTokens (w :: vs) := rfl

theorem memberTokens_cons_cons (name : Option String) (v : Json) (m : Option String × Json)
    (ms : List (Option String × Json)) : memberTokens ((name, v) :: m :: ms) =
      .text name :: .colon :: (v.tokens ++ .comma :: memberTokens (m :: ms)) := rfl

/-- `cs` is a JSON text of the value. -/
def Writes (v : Json) (cs : List Char) : Prop := Spelled v.tokens cs

end MemoryArbiter.Json
