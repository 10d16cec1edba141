import Mathlib.Data.List.Chain
import MemoryArbiter.Proofs.Json.Blanks
import MemoryArbiter.Proofs.Json.CodeUnits
import MemoryArbiter.Proofs.Json.Numbers

/-! # Scanning

However a list of tokens is written, the scanner finds these tokens.  A number or a word is only
complete at the character behind it, so two of them must not follow each other.
-/

namespace MemoryArbiter.Json

variable {c : Char} {cs ds bs rest : List Char} {t : Token} {ts acc : List Token} {s : Scan}

/-! ### Steps -/

def Scan.run (s : Scan) (cs : List Char) : Option Scan := cs.foldlM Scan.step s

@[simp] theorem Scan.run_nil (s : Scan) : s.run [] = some s := rfl

@[simp] theorem Scan.run_cons (s : Scan) (c : Char) (cs : List Char) :
    s.run (c :: cs) = (s.step c).bind fun s => s.run cs := rfl

theorem Scan.run_append (s : Scan) (cs ds : List Char) :
    s.run (cs ++ ds) = (s.run cs).bind fun s => s.run ds := List.foldlM_append

/-- No number and no word goes on with the character. -/
def Separates (c : Char) : Prop := isJsonBlank c = true ∨ ∃ t, (t, c) ∈ marks

theorem Separates.isWordChar (hc : Separates c) : isWordChar c = false := by
  rcases hc with hblank | ⟨t, ht⟩
  · exact isWordChar_of_isBlank (isBlank_of_isJsonBlank hblank)
  · have hall : ∀ m ∈ marks, Json.isWordChar m.2 = false := by decide
    exact hall (t, c) ht

theorem Separates.isNumberChar (hc : Separates c) : isNumberChar c = false := by
  rcases hc with hblank | ⟨t, ht⟩
  · exact isNumberChar_of_isBlank (isBlank_of_isJsonBlank hblank)
  · have hall : ∀ m ∈ marks, Json.isNumberChar m.2 = false := by decide
    exact hall (t, c) ht

/-- The scanner has read the tokens `acc`, kept in reverse.  The last one may still go on. -/
structure Scan.Holds (s : Scan) (acc : List Token) : Prop where
  finish : s.finish = some acc.reverse
  step : ∀ c, Separates c → s.step c = Scan.begin? acc c

theorem Scan.holds_between (acc : List Token) : Scan.Holds { tokens := acc } acc :=
  ⟨rfl, fun _ _ => rfl⟩

theorem Scan.holds_word (h : word? cs = some t) (acc : List Token) :
    Scan.Holds { mode := .word cs.reverse, tokens := acc } (t :: acc) where
  finish := by simp [Scan.finish, h]
  step c hc := by simp [Scan.step, hc.isWordChar, h]

theorem Scan.holds_number {n : JsonNumber} (h : number? cs = some n) (acc : List Token) :
    Scan.Holds { mode := .number cs.reverse, tokens := acc } (.number n :: acc) where
  finish := by simp [Scan.finish, h]
  step c hc := by simp [Scan.step, hc.isNumberChar, h]

/-! ### Blanks and lexemes -/

theorem isJsonBlank_of_blanks (h : Blanks bs) : ∀ c ∈ bs, isJsonBlank c = true := by
  intro c hc
  have hmem := h c hc
  simp only [List.mem_cons, List.not_mem_nil, or_false] at hmem
  rcases hmem with rfl | rfl | rfl | rfl <;> decide

theorem Scan.run_blanks (h : Blanks bs) (acc : List Token) :
    Scan.run { tokens := acc } bs = some { tokens := acc } := by
  have hblank := isJsonBlank_of_blanks h
  clear h
  induction bs with
  | nil => rfl
  | cons b bs ih =>
    have hb := hblank b List.mem_cons_self
    have hstep : Scan.step { tokens := acc } b = some { tokens := acc } := if_pos hb
    rw [Scan.run_cons, hstep, Option.bind_some]
    exact ih fun c hc => hblank c (List.mem_cons_of_mem b hc)

theorem Scan.begin?_mark (h : (t, c) ∈ marks) (acc : List Token) :
    Scan.begin? acc c = some { tokens := t :: acc } := by
  simp only [marks, List.mem_cons, List.not_mem_nil, Prod.mk.injEq, or_false] at h
  rcases h with ⟨rfl, rfl⟩ | ⟨rfl, rfl⟩ | ⟨rfl, rfl⟩ | ⟨rfl, rfl⟩ | ⟨rfl, rfl⟩ | ⟨rfl, rfl⟩ <;> rfl

theorem Scan.run_word (h : (t, cs) ∈ words) (acc : List Token) :
    Scan.run { tokens := acc } cs = some { mode := .word cs.reverse, tokens := acc } ∧
      word? cs = some t := by
  simp only [words, List.mem_cons, List.not_mem_nil, Prod.mk.injEq, or_false] at h
  rcases h with ⟨rfl, rfl⟩ | ⟨rfl, rfl⟩ | ⟨rfl, rfl⟩ <;> exact ⟨rfl, rfl⟩

theorem Scan.run_numberChars (h : ∀ c ∈ cs, isNumberChar c = true) (read : List Char)
    (acc : List Token) : Scan.run { mode := .number read, tokens := acc } cs =
      some { mode := .number (cs.reverse ++ read), tokens := acc } := by
  induction cs generalizing read with
  | nil => rfl
  | cons c cs ih =>
    have hc := h c List.mem_cons_self
    have hstep : Scan.step { mode := .number read, tokens := acc } c =
        some { mode := .number (c :: read), tokens := acc } := if_pos hc
    rw [Scan.run_cons, hstep, Option.bind_some,
      ih (fun d hd => h d (List.mem_cons_of_mem c hd)), List.reverse_cons, List.append_assoc]
    rfl

theorem Scan.run_number {n : JsonNumber} (h : SpelledNumber n cs) (acc : List Token) :
    Scan.run { tokens := acc } cs = some { mode := .number cs.reverse, tokens := acc } := by
  obtain ⟨c, rest, rfl, hc⟩ := h.first
  have hchars := h.numberChars
  have hnumber := hchars c List.mem_cons_self
  have hblank : ¬ isJsonBlank c = true := fun h => by
    simp [isNumberChar_of_isBlank (isBlank_of_isJsonBlank h)] at hnumber
  have hquote : c ≠ '"' := fun h => absurd hnumber (by rw [h]; decide)
  have hbegin : Scan.begin? acc c = some { mode := .number [c], tokens := acc } := by
    rw [Scan.begin?, if_neg hblank, if_neg hquote, if_pos hc]
  rw [Scan.run_cons, Scan.step, hbegin, Option.bind_some,
    Scan.run_numberChars fun d hd => hchars d (List.mem_cons_of_mem c hd), List.reverse_cons]

/-! ### Strings -/

theorem hexDigit?_spelled {v : Nat} (h : SpelledHex v c) : Text.hexDigit? c = some v := by
  have hall : ∀ v < 16, Text.hexDigit? (Nat.digitChar v) = some v ∧
      Text.hexDigit? (Nat.digitChar v).toUpper = some v := by decide
  obtain ⟨hv, rfl | rfl⟩ := h
  · exact (hall v hv).1
  · exact (hall v hv).2

theorem Scan.run_part {us : List Nat} (h : SpelledPart us cs) (q : Quote) (acc : List Token) :
    Scan.run { mode := .quote q, tokens := acc } cs =
      some { mode := .quote (us.foldl Quote.pushUnit q), tokens := acc } := by
  cases h with
  | @plain c hprintable hquote hback =>
    rw [Quote.foldl_pushUnit_units]
    simp [Scan.step, hquote, hback, Nat.not_lt.mpr hprintable]
  | @escaped c meant hmem =>
    have hall : ∀ e ∈ escapes, e.1 ≠ 'u' ∧ escaped? e.1 = some e.2 := by decide
    obtain ⟨hu, hmeant⟩ := hall (c, meant) hmem
    rw [Quote.foldl_pushUnit_units]
    simp [Scan.step, hu, hmeant]
  | @unit u v w x a b c d hu hv hw hx =>
    have hvalue : 16 * (16 * (16 * (16 * 0 + u) + v) + w) + x =
        0x1000 * u + 0x100 * v + 0x10 * w + x := by omega
    simp [Scan.step, hexDigit?_spelled hu, hexDigit?_spelled hv, hexDigit?_spelled hw,
      hexDigit?_spelled hx, ← hvalue]

theorem Scan.run_parts {us : List Nat} (h : SpelledParts us cs) (q : Quote) (acc : List Token) :
    Scan.run { mode := .quote q, tokens := acc } cs =
      some { mode := .quote (us.foldl Quote.pushUnit q), tokens := acc } := by
  induction h generalizing q with
  | nil => rfl
  | cons hpart hparts ih =>
    rw [Scan.run_append, Scan.run_part hpart, Option.bind_some, ih, List.foldl_append]

theorem SpelledPart.units_lt {us : List Nat} (h : SpelledPart us cs) : ∀ u ∈ us, u < 0x10000 := by
  cases h with
  | plain _ _ _ | escaped _ => exact fun u hu => lt_of_mem_units hu
  | unit hu hv hw hx =>
    obtain ⟨hu, -⟩ := hu
    obtain ⟨hv, -⟩ := hv
    obtain ⟨hw, -⟩ := hw
    obtain ⟨hx, -⟩ := hx
    simp only [List.mem_singleton, forall_eq]
    omega

theorem SpelledParts.units_lt {us : List Nat} (h : SpelledParts us cs) : ∀ u ∈ us, u < 0x10000 := by
  induction h with
  | nil => nofun
  | cons hpart _ ih =>
    intro u hu
    rcases List.mem_append.mp hu with hu | hu
    · exact hpart.units_lt u hu
    · exact ih u hu

theorem Scan.run_text {us : List Nat} {text : Option String} (h : SpelledParts us cs)
    (hus : Denotes us text) (acc : List Token) :
    Scan.run { tokens := acc } ('"' :: (cs ++ ['"'])) = some { tokens := .text text :: acc } := by
  have hopen : Scan.step { tokens := acc } '"' = some { mode := .quote {}, tokens := acc } := rfl
  rw [Scan.run_cons, hopen, Option.bind_some, Scan.run_append, Scan.run_parts h, Option.bind_some,
    ← Quote.text_of_denotes h.units_lt hus]
  rfl

/-! ### Texts -/

theorem Lexeme.of_isMark (h : Lexeme t cs) (ht : t.IsMark) : ∃ c, cs = [c] ∧ (t, c) ∈ marks := by
  obtain ⟨d, hd⟩ := ht
  cases h with
  | @mark t c hc => exact ⟨c, rfl, hc⟩
  | word hword =>
    simp only [words, List.mem_cons, List.not_mem_nil, Prod.mk.injEq, or_false] at hword
    rcases hword with ⟨rfl, -⟩ | ⟨rfl, -⟩ | ⟨rfl, -⟩ <;> simp [marks] at hd
  | number _ => simp [marks] at hd
  | text _ _ => simp [marks] at hd

theorem Scan.run_lexeme (h : Lexeme t cs) (acc : List Token) :
    ∃ s, Scan.run { tokens := acc } cs = some s ∧ s.Holds (t :: acc) ∧
      (t.IsMark → s = { tokens := t :: acc }) := by
  cases h with
  | @mark t c hc =>
    have hrun : Scan.run { tokens := acc } [c] = some { tokens := t :: acc } := by
      rw [Scan.run_cons, Scan.step, Scan.begin?_mark hc]
      rfl
    exact ⟨_, hrun, Scan.holds_between _, fun _ => rfl⟩
  | word hword =>
    obtain ⟨hrun, ht⟩ := Scan.run_word hword acc
    refine ⟨_, hrun, Scan.holds_word ht acc, fun hmark => ?_⟩
    obtain ⟨c, rfl, -⟩ := (Lexeme.word hword).of_isMark hmark
    exact absurd hword (by simp [words])
  | number hn =>
    refine ⟨_, Scan.run_number hn acc, Scan.holds_number (number?_spelled hn) acc, fun hmark => ?_⟩
    obtain ⟨c, -, hc⟩ := (Lexeme.number hn).of_isMark hmark
    exact absurd hc (by simp [marks])
  | text hparts hdenotes =>
    exact ⟨_, Scan.run_text hparts hdenotes acc, Scan.holds_between _, fun _ => rfl⟩

/-- Of two neighbours at least one is a mark. -/
def Apart (ts : List Token) : Prop := ts.IsChain fun t u => t.IsMark ∨ u.IsMark

theorem Spelled.first (h : Spelled ts cs) (hmark : ∀ t ∈ ts.head?, t.IsMark) :
    (ts = [] ∧ cs = []) ∨ ∃ c rest, cs = c :: rest ∧ Separates c := by
  have hblank : ∀ {b bs}, Blanks (b :: bs) → Separates b :=
    fun h => .inl (isJsonBlank_of_blanks h _ List.mem_cons_self)
  cases h with
  | nil hbs =>
    cases cs with
    | nil => exact .inl ⟨rfl, rfl⟩
    | cons b bs => exact .inr ⟨b, bs, rfl, hblank hbs⟩
  | @cons t ts bs cs rest hbs hlex _ =>
    cases bs with
    | nil =>
      obtain ⟨c, rfl, hc⟩ := hlex.of_isMark (hmark t rfl)
      exact .inr ⟨c, rest, rfl, .inr ⟨t, hc⟩⟩
    | cons b bs => exact .inr ⟨b, _, rfl, hblank hbs⟩

theorem Scan.run_spelled (h : Spelled ts cs) (hapart : Apart ts) (acc : List Token) :
    ∃ s, Scan.run { tokens := acc } cs = some s ∧ s.Holds (ts.reverse ++ acc) := by
  induction h generalizing acc with
  | nil hbs => exact ⟨_, Scan.run_blanks hbs acc, Scan.holds_between acc⟩
  | @cons t ts bs cs rest hbs hlex hrest ih =>
    obtain ⟨hnext, hapart⟩ := List.isChain_cons.mp hapart
    obtain ⟨s, hrun, hholds, hbetween⟩ := Scan.run_lexeme hlex acc
    obtain ⟨s', hrun', hholds'⟩ := ih hapart (t :: acc)
    rw [Scan.run_append, Scan.run_blanks hbs, Option.bind_some, Scan.run_append, hrun,
      Option.bind_some, List.reverse_cons, List.append_assoc]
    by_cases ht : t.IsMark
    · rw [hbetween ht]
      exact ⟨s', hrun', hholds'⟩
    · -- the next token is a mark, so the first character completes this one
      rcases hrest.first fun u hu => (hnext u hu).resolve_left ht with
        ⟨rfl, rfl⟩ | ⟨c, rest, rfl, hc⟩
      · exact ⟨s, rfl, hholds⟩
      · rw [Scan.run_cons, hholds.step c hc]
        exact ⟨s', hrun', hholds'⟩

theorem tokens?_spelled (h : Spelled ts cs) (hapart : Apart ts) : tokens? cs = some ts := by
  obtain ⟨s, hrun, hholds⟩ := Scan.run_spelled h hapart []
  have hfold : cs.foldlM Scan.step {} = some s := hrun
  rw [tokens?, hfold, Option.bind_some, hholds.finish, List.append_nil, List.reverse_reverse]

end MemoryArbiter.Json
