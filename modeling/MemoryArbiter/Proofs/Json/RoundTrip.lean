import MemoryArbiter.Json.Writer
import MemoryArbiter.Proofs.Json.Parsing

/-! # What is written is read

The writer spells each token in one way, without blanks.  So a value whose numbers are numbers is
read back as it was written.
-/

namespace MemoryArbiter.Json

/-! ### Tokens -/

/-- How the writer spells a token. -/
def Token.chars : Token → List Char
  | .openBrace => ['{']
  | .closeBrace => ['}']
  | .openBracket => ['[']
  | .closeBracket => [']']
  | .colon => [':']
  | .comma => [',']
  | .null => ['n', 'u', 'l', 'l']
  | .bool true => ['t', 'r', 'u', 'e']
  | .bool false => ['f', 'a', 'l', 's', 'e']
  | .number n => n.chars
  | .text s => quote s

mutual

theorem chars_eq (v : Json) : v.chars = v.tokens.flatMap Token.chars := by
  match v with
  | .null => rfl
  | .bool true => rfl
  | .bool false => rfl
  | .number n => simp [chars, tokens, Token.chars]
  | .text s => simp [chars, tokens, Token.chars]
  | .array items =>
    have h := itemsChars_eq items
    simp [chars, tokens, Token.chars, h]
  | .object members =>
    have h := membersChars_eq members
    simp [chars, tokens, Token.chars, h]
termination_by sizeOf v

theorem itemsChars_eq (items : List Json) :
    itemsChars items = (itemTokens items).flatMap Token.chars := by
  match items with
  | [] => rfl
  | [v] =>
    have h := chars_eq v
    simp [itemsChars, itemTokens, h]
  | v :: w :: items =>
    have h := chars_eq v
    have hrest := itemsChars_eq (w :: items)
    simp [itemsChars, itemTokens, Token.chars, h, hrest]
termination_by sizeOf items

theorem membersChars_eq (members : List (Option String × Json)) :
    membersChars members = (memberTokens members).flatMap Token.chars := by
  match members with
  | [] => rfl
  | [(name, v)] =>
    have h := chars_eq v
    simp [membersChars, memberTokens, Token.chars, h]
  | (name, v) :: m :: members =>
    have h := chars_eq v
    have hrest := membersChars_eq (m :: members)
    simp [membersChars, memberTokens, Token.chars, h, hrest]
termination_by sizeOf members

end

/-! ### Strings -/

theorem spelledHex_digitChar {v : Nat} (hv : v < 16) : SpelledHex v (Nat.digitChar v) :=
  ⟨hv, .inl rfl⟩

theorem spelledPart_escapeChar (c : Char) : SpelledPart (units c) (escapeChar c) := by
  by_cases hquote : c = '"'
  · rw [hquote]
    exact .escaped (by decide)
  by_cases hback : c = '\\'
  · rw [hback]
    exact .escaped (by decide)
  by_cases hcontrol : c.toNat < 0x20
  · have hunits : units c =
        [0x1000 * 0 + 0x100 * 0 + 0x10 * (c.toNat / 16) + c.toNat % 16] := by
      rw [units, if_pos (by omega)]
      congr
      omega
    rw [hunits, escapeChar, if_neg hquote, if_neg hback, if_pos hcontrol]
    have hzero : SpelledHex 0 '0' := spelledHex_digitChar (by decide)
    exact .unit hzero hzero (spelledHex_digitChar (by omega)) (spelledHex_digitChar (by omega))
  · rw [escapeChar, if_neg hquote, if_neg hback, if_neg hcontrol]
    exact .plain (Nat.not_lt.mp hcontrol) hquote hback

theorem spelledParts_escapeChar (cs : List Char) :
    SpelledParts (cs.flatMap units) (cs.flatMap escapeChar) := by
  induction cs with
  | nil => exact .nil
  | cons c cs ih => exact .cons (spelledPart_escapeChar c) ih

theorem lexeme_quote (s : Option String) : Lexeme (.text s) (quote s) := by
  cases s with
  | some s => exact .text (spelledParts_escapeChar s.toList) (denotes_units s)
  | none =>
    have hd : SpelledHex 13 'd' := spelledHex_digitChar (by decide)
    have height : SpelledHex 8 '8' := spelledHex_digitChar (by decide)
    have hzero : SpelledHex 0 '0' := spelledHex_digitChar (by decide)
    have hpart : SpelledPart [0xD800] ['\\', 'u', 'd', '8', '0', '0'] := .unit hd height hzero hzero
    exact .text (.cons hpart .nil) (denotes_lone (by decide))

/-! ### Numbers -/

theorem eq_zero_of_head?_toDigits {n : Nat} (h : (Nat.toDigits 10 n).head? = some '0') :
    n = 0 := by
  induction n using Nat.strongRecOn with
  | ind n ih =>
    by_cases hn : n < 10
    · have hall : ∀ n < 10, Nat.digitChar n = '0' → n = 0 := by decide
      rw [Nat.toDigits_of_lt_base hn, List.head?_cons, Option.some_inj] at h
      exact hall n hn h
    · rw [Nat.toDigits_eq_if (by decide), if_neg hn,
        List.head?_append_of_ne_nil _ Nat.toDigits_ne_nil] at h
      have hquotient := ih (n / 10) (by omega) h
      omega

theorem spelledNumber_ofInt (i : Int) :
    SpelledNumber { negative := i < 0, whole := Nat.toDigits 10 i.natAbs }
      (JsonNumber.chars { negative := i < 0, whole := Nat.toDigits 10 i.natAbs }) := by
  have hzero : (Nat.toDigits 10 i.natAbs).head? = some '0' → Nat.toDigits 10 i.natAbs = ['0'] := by
    intro h
    rw [eq_zero_of_head?_toDigits h]
    rfl
  have h := SpelledNumber.mk (n := { negative := i < 0, whole := Nat.toDigits 10 i.natAbs })
    (digits_toDigits _) hzero .none .none
  simpa [JsonNumber.chars] using h

/-! ### Values -/

/-- Every number of the value is written as a number. -/
def Numeric (v : Json) : Prop := ∀ n, .number n ∈ v.tokens → SpelledNumber n n.chars

theorem numeric_null : Numeric .null := by
  intro n hn
  simp [tokens] at hn

theorem numeric_ofString (s : String) : (ofString s).Numeric := by
  intro n hn
  simp [ofString, tokens] at hn

theorem numeric_ofInt (i : Int) : (ofInt i).Numeric := by
  intro n hn
  simp only [ofInt, tokens, List.mem_singleton, Token.number.injEq] at hn
  exact hn ▸ spelledNumber_ofInt i

theorem exists_of_number_mem_memberTokens {n : JsonNumber}
    {members : List (Option String × Json)} (hn : .number n ∈ memberTokens members) :
    ∃ m ∈ members, .number n ∈ m.2.tokens := by
  induction members with
  | nil => exact nomatch hn
  | cons m members ih =>
    obtain ⟨name, v⟩ := m
    cases members with
    | nil => exact ⟨(name, v), List.mem_singleton_self _, by simpa [memberTokens] using hn⟩
    | cons w members =>
      simp only [memberTokens_cons_cons, List.mem_cons, List.mem_append, reduceCtorEq,
        false_or] at hn
      rcases hn with hn | hn
      · exact ⟨(name, v), List.mem_cons_self, hn⟩
      · obtain ⟨m, hm, hn⟩ := ih hn
        exact ⟨m, List.mem_cons_of_mem _ hm, hn⟩

theorem numeric_ofMembers {members : List (String × Json)} (h : ∀ m ∈ members, m.2.Numeric) :
    (ofMembers members).Numeric := by
  intro n hn
  simp only [ofMembers, tokens, List.mem_cons, List.mem_append, List.not_mem_nil, reduceCtorEq,
    or_false, false_or] at hn
  obtain ⟨_, hmember, hn⟩ := exists_of_number_mem_memberTokens hn
  obtain ⟨m, hm, rfl⟩ := List.mem_map.mp hmember
  exact h m hm n hn

theorem lexeme_chars {t : Token} (ht : ∀ n, t = .number n → SpelledNumber n n.chars) :
    Lexeme t t.chars := by
  match t with
  | .number n => exact .number (ht n rfl)
  | .text s => exact lexeme_quote s
  | .null => exact .word (by decide)
  | .bool true => exact .word (by decide)
  | .bool false => exact .word (by decide)
  | .openBrace | .closeBrace | .openBracket | .closeBracket | .colon | .comma =>
    exact .mark (by decide)

theorem spelled_flatMap_chars {ts : List Token}
    (hts : ∀ n, .number n ∈ ts → SpelledNumber n n.chars) :
    Spelled ts (ts.flatMap Token.chars) := by
  induction ts with
  | nil => exact .nil nofun
  | cons t ts ih =>
    have hlexeme := lexeme_chars fun n hn => hts n (hn ▸ List.mem_cons_self)
    have hblanks : Blanks [] := nofun
    exact .cons hblanks hlexeme (ih fun n hn => hts n (List.mem_cons_of_mem t hn))

theorem writes_chars {v : Json} (hv : v.Numeric) : v.Writes v.chars := by
  rw [Writes, chars_eq]
  exact spelled_flatMap_chars hv

theorem read?_chars {v : Json} (hv : v.Numeric) : read? v.chars = some v :=
  read?_writes (writes_chars hv)

end MemoryArbiter.Json
