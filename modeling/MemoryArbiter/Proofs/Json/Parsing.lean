import MemoryArbiter.Proofs.Json.Scanning

/-! # Parsing

The parser puts the tokens of a value together to the value, whatever arrays and objects are open
around it.  So every JSON text of a value is read as the value.
-/

namespace MemoryArbiter.Json

variable {stack : List Frame} {e : Expect} {rest : List Token}

def Parse.run (p : Parse) (ts : List Token) : Option Parse := ts.foldlM Parse.step p

theorem Parse.run_cons (p : Parse) (t : Token) (ts : List Token) :
    p.run (t :: ts) = (p.step t).bind fun p => p.run ts := rfl

/-- A value may begin. -/
def Expect.AwaitsValue (e : Expect) : Prop := e = .value ∨ e = .firstItem

/-- The name of a member may follow. -/
def Expect.AwaitsName (e : Expect) : Prop := e = .name ∨ e = .firstName

theorem Parse.step_begin {t : Token} {p : Parse} (he : e.AwaitsValue)
    (h : Parse.begin? stack t = some p) :
    Parse.step { stack := stack, expect := e } t = some p := by
  have ht : t ≠ .closeBracket := by
    rintro rfl
    exact nomatch h
  rcases he with rfl | rfl
  · exact h
  · exact (if_neg ht).trans h

theorem Parse.run_begin {t : Token} {p : Parse} (he : e.AwaitsValue)
    (h : Parse.begin? stack t = some p) :
    Parse.run { stack := stack, expect := e } (t :: rest) = p.run rest := by
  rw [Parse.run_cons, Parse.step_begin he h, Option.bind_some]

theorem Parse.run_name {name : Option String} {done : List (Option String × Json)}
    (he : e.AwaitsName) :
    Parse.run { stack := .object done :: stack, expect := e } (.text name :: .colon :: rest) =
      Parse.run { stack := .member done name :: stack, expect := .value } rest := by
  rcases he with rfl | rfl <;> rfl

mutual

/-- Wherever a value may begin, its tokens are put together to it. -/
theorem Parse.run_tokens (v : Json) (stack : List Frame) (e : Expect) (rest : List Token)
    (he : e.AwaitsValue) : Parse.run { stack := stack, expect := e } (v.tokens ++ rest) =
      (Parse.place stack v).run rest := by
  match v with
  | .null | .bool _ | .number _ | .text _ => exact Parse.run_begin he rfl
  | .array [] =>
    rw [tokens, itemTokens, List.nil_append, List.cons_append, Parse.run_begin he rfl]
    rfl
  | .array (v :: items) =>
    rw [tokens, List.cons_append, Parse.run_begin he rfl, List.append_assoc]
    exact Parse.run_itemTokens v items [] stack .firstItem rest (.inr rfl)
  | .object [] =>
    rw [tokens, memberTokens, List.nil_append, List.cons_append, Parse.run_begin he rfl]
    rfl
  | .object (m :: members) =>
    rw [tokens, List.cons_append, Parse.run_begin he rfl, List.append_assoc]
    exact Parse.run_memberTokens m members [] stack .firstName rest (.inr rfl)
termination_by sizeOf v

theorem Parse.run_itemTokens (v : Json) (items done : List Json) (stack : List Frame) (e : Expect)
    (rest : List Token) (he : e.AwaitsValue) :
    Parse.run { stack := .array done :: stack, expect := e }
        (itemTokens (v :: items) ++ .closeBracket :: rest) =
      (Parse.place stack (.array (done.reverse ++ v :: items))).run rest := by
  match items with
  | [] =>
    have hclose : (Parse.place (.array done :: stack) v).step .closeBracket =
        some (Parse.place stack (.array (v :: done).reverse)) := rfl
    rw [itemTokens, Parse.run_tokens v _ e _ he, Parse.run_cons, hclose, Option.bind_some,
      List.reverse_cons]
  | w :: items =>
    have h := Parse.run_itemTokens w items (v :: done) stack .value rest (.inl rfl)
    rw [List.reverse_cons, List.append_assoc] at h
    rw [itemTokens_cons_cons, List.append_assoc, Parse.run_tokens v _ e _ he]
    exact h
termination_by sizeOf (v :: items)

theorem Parse.run_memberTokens (m : Option String × Json)
    (members done : List (Option String × Json)) (stack : List Frame) (e : Expect)
    (rest : List Token) (he : e.AwaitsName) :
    Parse.run { stack := .object done :: stack, expect := e }
        (memberTokens (m :: members) ++ .closeBrace :: rest) =
      (Parse.place stack (.object (done.reverse ++ m :: members))).run rest := by
  match m, members with
  | (name, v), [] =>
    have hclose : (Parse.place (.member done name :: stack) v).step .closeBrace =
        some (Parse.place stack (.object ((name, v) :: done).reverse)) := rfl
    rw [memberTokens, List.cons_append, List.cons_append, Parse.run_name he,
      Parse.run_tokens v _ _ _ (.inl rfl), Parse.run_cons, hclose, Option.bind_some,
      List.reverse_cons]
  | (name, v), m :: members =>
    have h := Parse.run_memberTokens m members ((name, v) :: done) stack .name rest (.inl rfl)
    rw [List.reverse_cons, List.append_assoc] at h
    rw [memberTokens_cons_cons, List.cons_append, List.cons_append, List.append_assoc,
      Parse.run_name he, Parse.run_tokens v _ _ _ (.inl rfl)]
    exact h
termination_by sizeOf (m :: members)

end

theorem ofTokens?_tokens (v : Json) : ofTokens? v.tokens = some v := by
  have hrun := Parse.run_tokens v [] .value [] (.inl rfl)
  rw [List.append_nil] at hrun
  have hfold : v.tokens.foldlM Parse.step {} = some (Parse.place [] v) := hrun
  rw [ofTokens?, hfold]
  rfl

/-! ### Marks between the tokens -/

theorem isMark_comma : Token.comma.IsMark := ⟨',', by decide⟩

theorem isMark_colon : Token.colon.IsMark := ⟨':', by decide⟩

theorem Apart.cons_mark {m : Token} {ts : List Token} (hts : Apart ts) (hm : m.IsMark) :
    Apart (m :: ts) :=
  List.isChain_cons.mpr ⟨fun _ _ => .inl hm, hts⟩

theorem Apart.append_mark {m : Token} {ts us : List Token} (hts : Apart ts) (hm : m.IsMark)
    (hus : Apart us) : Apart (ts ++ m :: us) := by
  refine List.isChain_append.mpr ⟨hts, hus.cons_mark hm, fun t _ u hu => ?_⟩
  cases hu
  exact .inr hm

theorem Apart.brackets {ts : List Token} (hts : Apart ts) :
    Apart (.openBracket :: (ts ++ [.closeBracket])) :=
  (hts.append_mark ⟨']', by decide⟩ List.isChain_nil).cons_mark ⟨'[', by decide⟩

theorem Apart.braces {ts : List Token} (hts : Apart ts) :
    Apart (.openBrace :: (ts ++ [.closeBrace])) :=
  (hts.append_mark ⟨'}', by decide⟩ List.isChain_nil).cons_mark ⟨'{', by decide⟩

theorem Apart.member {ts : List Token} (hts : Apart ts) (name : Option String) :
    Apart (.text name :: .colon :: ts) :=
  Apart.append_mark (List.isChain_singleton (Token.text name)) isMark_colon hts

mutual

theorem apart_tokens (v : Json) : Apart v.tokens := by
  match v with
  | .null | .bool _ | .number _ | .text _ => exact List.isChain_singleton _
  | .array [] => exact Apart.brackets List.isChain_nil
  | .array (v :: items) =>
    rw [tokens]
    exact (apart_itemTokens v items).brackets
  | .object [] => exact Apart.braces List.isChain_nil
  | .object (m :: members) =>
    rw [tokens]
    exact (apart_memberTokens m members).braces
termination_by sizeOf v

theorem apart_itemTokens (v : Json) (items : List Json) : Apart (itemTokens (v :: items)) := by
  match items with
  | [] =>
    rw [itemTokens]
    exact apart_tokens v
  | w :: items =>
    rw [itemTokens_cons_cons]
    exact (apart_tokens v).append_mark isMark_comma (apart_itemTokens w items)
termination_by sizeOf (v :: items)

theorem apart_memberTokens (m : Option String × Json) (members : List (Option String × Json)) :
    Apart (memberTokens (m :: members)) := by
  match m, members with
  | (name, v), [] =>
    rw [memberTokens]
    exact (apart_tokens v).member name
  | (name, v), m :: members =>
    rw [memberTokens_cons_cons]
    exact ((apart_tokens v).append_mark isMark_comma (apart_memberTokens m members)).member name
termination_by sizeOf (m :: members)

end

/-- Every JSON text of a value is read as the value. -/
theorem read?_writes {v : Json} {cs : List Char} (h : v.Writes cs) : read? cs = some v := by
  rw [read?, tokens?_spelled h (apart_tokens v), Option.bind_some, ofTokens?_tokens]

end MemoryArbiter.Json
