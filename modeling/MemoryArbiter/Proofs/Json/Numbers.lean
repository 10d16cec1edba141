import MemoryArbiter.Json.Number
import MemoryArbiter.Proofs.Json.Spelling
import MemoryArbiter.Proofs.Text.Digits

/-! # Numbers as they are written

Each part of a number ends at a character that is no digit, so its parts are told apart again.  The
digits of an integer stand for the integer.
-/

namespace MemoryArbiter.Json

variable {c : Char} {cs ds rest : List Char}

theorem Digits.all (h : Digits ds) : ∀ d ∈ ds, Text.isDigit d = true :=
  fun d hd => (Text.isDigit_eq d).trans (h.2 d hd)

/-- No digit follows. -/
def Stops (rest : List Char) : Prop := ∀ c ∈ rest.head?, Text.isDigit c = false

theorem Stops.takeWhile_eq_nil (h : Stops rest) : rest.takeWhile Text.isDigit = [] := by
  cases rest with
  | nil => rfl
  | cons c rest => rw [List.takeWhile_cons, h c rfl]; rfl

theorem Stops.dropWhile_eq_self (h : Stops rest) : rest.dropWhile Text.isDigit = rest := by
  cases rest with
  | nil => rfl
  | cons c rest => rw [List.dropWhile_cons, h c rfl]; rfl

theorem Digits.takeWhile_append (h : Digits ds) (hrest : Stops rest) :
    (ds ++ rest).takeWhile Text.isDigit = ds := by
  rw [List.takeWhile_append_of_pos h.all, hrest.takeWhile_eq_nil, List.append_nil]

theorem Digits.dropWhile_append (h : Digits ds) (hrest : Stops rest) :
    (ds ++ rest).dropWhile Text.isDigit = rest := by
  rw [List.dropWhile_append_of_pos h.all, hrest.dropWhile_eq_self]

theorem Digits.exists_cons (h : Digits ds) : ∃ d rest, ds = d :: rest ∧ Text.isDigit d = true := by
  obtain ⟨d, rest, rfl⟩ := List.exists_cons_of_ne_nil h.1
  exact ⟨d, rest, rfl, h.all d List.mem_cons_self⟩

theorem SpelledExponent.stops {exponent : Option (Bool × List Char)}
    (h : SpelledExponent exponent cs) : Stops cs := by
  have hletter : ∀ e, e = 'e' ∨ e = 'E' → Text.isDigit e = false := by
    rintro e (rfl | rfl) <;> decide
  cases h with
  | none => nofun
  | unsigned he _ | plus he _ | minus he _ =>
    rintro c hc
    cases hc
    exact hletter _ he

theorem Digits.check (h : Digits ds) : (!ds.isEmpty && ds.all Text.isDigit) = true := by
  have hne : ds.isEmpty = false := by simpa using h.1
  rw [hne, List.all_eq_true.mpr h.all]
  rfl

theorem exponentPart?_spelled {exponent : Option (Bool × List Char)}
    (h : SpelledExponent exponent cs) : exponentPart? cs = some exponent := by
  have hletter : ∀ e, e = 'e' ∨ e = 'E' → (decide (e = 'e') || decide (e = 'E')) = true := by
    rintro e (rfl | rfl) <;> decide
  cases h with
  | none => rfl
  | @unsigned e ds he hds =>
    obtain ⟨d, rest, rfl, hd⟩ := hds.exists_cons
    have hminus : d ≠ '-' := fun h => absurd hd (by rw [h]; decide)
    have hplus : d ≠ '+' := fun h => absurd hd (by rw [h]; decide)
    rw [exponentPart?, if_pos (hletter e he), if_pos hds.check]
    · exact fun ds h => hminus (List.cons.inj h).1
    · exact fun ds h => hplus (List.cons.inj h).1
  | plus he hds | minus he hds => simp only [exponentPart?, hletter _ he, hds.check, if_true]

theorem not_spelledExponent_point (exponent : Option (Bool × List Char)) (ds : List Char) :
    ¬ SpelledExponent exponent ('.' :: ds) := by
  intro h
  cases h with
  | unsigned he _ | plus he _ | minus he _ => exact absurd he (by decide)

theorem SpelledFraction.stops_append {fraction exponent : List Char}
    (h : SpelledFraction fraction cs) (hexponent : Stops exponent) : Stops (cs ++ exponent) := by
  cases h with
  | none => exact hexponent
  | some hds =>
    rintro c hc
    cases hc
    decide

theorem unsigned?_spelled {negative : Bool} {whole fraction fractionChars exponentChars : List Char}
    {exponent : Option (Bool × List Char)} (hwhole : Digits whole)
    (hzero : whole.head? = some '0' → whole = ['0'])
    (hfraction : SpelledFraction fraction fractionChars)
    (hexponent : SpelledExponent exponent exponentChars) :
    unsigned? negative (whole ++ (fractionChars ++ exponentChars)) =
      some { negative, whole, fraction, exponent } := by
  have hstops := hfraction.stops_append hexponent.stops
  have hwholeOk : (whole.isEmpty || (whole.head? == some '0' && whole.length > 1)) = false := by
    have hempty : whole.isEmpty = false := by simpa using hwhole.1
    by_cases hhead : whole.head? = some '0'
    · rw [hzero hhead]
      decide
    · simp [hempty, hhead]
  unfold unsigned?
  simp only [hwhole.takeWhile_append hstops, hwhole.dropWhile_append hstops, hwholeOk]
  cases hfraction with
  | none =>
    rw [List.nil_append, if_neg Bool.false_ne_true]
    split
    · exact absurd hexponent (not_spelledExponent_point _ _)
    · rw [exponentPart?_spelled hexponent]
      rfl
  | some hds =>
    have hempty : fraction.isEmpty = false := by simpa using hds.1
    simp [hds.takeWhile_append hexponent.stops, hds.dropWhile_append hexponent.stops,
      exponentPart?_spelled hexponent, hempty]

theorem number?_spelled {n : JsonNumber} (h : SpelledNumber n cs) : number? cs = some n := by
  obtain ⟨hwhole, hzero, hfraction, hexponent⟩ := h
  obtain ⟨negative, whole, fraction, exponent⟩ := n
  cases negative with
  | true => exact unsigned?_spelled hwhole hzero hfraction hexponent
  | false =>
    obtain ⟨d, rest, rfl, hd⟩ := hwhole.exists_cons
    have hminus : d ≠ '-' := fun h => absurd hd (by rw [h]; decide)
    refine Eq.trans ?_ (unsigned?_spelled hwhole hzero hfraction hexponent)
    simp [number?, hminus]

theorem SpelledNumber.first {n : JsonNumber} (h : SpelledNumber n cs) :
    ∃ c rest, cs = c :: rest ∧ (decide (c = '-') || Text.isDigit c) = true := by
  obtain ⟨hwhole, -, -, -⟩ := h
  obtain ⟨d, rest, hrest, hd⟩ := hwhole.exists_cons
  cases n.negative with
  | true => exact ⟨'-', _, rfl, rfl⟩
  | false => exact ⟨d, _, by rw [hrest]; rfl, by rw [hd, Bool.or_true]⟩

theorem isNumberChar_of_isDigit (hc : Text.isDigit c = true) : isNumberChar c = true := by
  simp [isNumberChar, hc]

theorem Digits.numberChars (h : Digits ds) : ∀ d ∈ ds, isNumberChar d = true :=
  fun d hd => isNumberChar_of_isDigit (h.all d hd)

theorem SpelledFraction.numberChars {fraction : List Char} (h : SpelledFraction fraction cs) :
    ∀ c ∈ cs, isNumberChar c = true := by
  cases h with
  | none => nofun
  | some hds => exact List.forall_mem_cons.mpr ⟨by decide, hds.numberChars⟩

theorem SpelledExponent.numberChars {exponent : Option (Bool × List Char)}
    (h : SpelledExponent exponent cs) : ∀ c ∈ cs, isNumberChar c = true := by
  have hletter : ∀ e, e = 'e' ∨ e = 'E' → isNumberChar e = true := by
    rintro e (rfl | rfl) <;> decide
  cases h with
  | none => nofun
  | unsigned he hds => exact List.forall_mem_cons.mpr ⟨hletter _ he, hds.numberChars⟩
  | plus he hds | minus he hds =>
    exact List.forall_mem_cons.mpr
      ⟨hletter _ he, List.forall_mem_cons.mpr ⟨by decide, hds.numberChars⟩⟩

theorem SpelledNumber.numberChars {n : JsonNumber} (h : SpelledNumber n cs) :
    ∀ c ∈ cs, isNumberChar c = true := by
  obtain ⟨hwhole, -, hfraction, hexponent⟩ := h
  have hsign : ∀ c ∈ (if n.negative then ['-'] else []), isNumberChar c = true := by
    cases n.negative with
    | true =>
      intro c hc
      rw [List.mem_singleton.mp hc]
      decide
    | false => nofun
  exact List.forall_mem_append.mpr ⟨hsign, List.forall_mem_append.mpr ⟨hwhole.numberChars,
    List.forall_mem_append.mpr ⟨hfraction.numberChars, hexponent.numberChars⟩⟩⟩

/-! ### Integers -/

theorem digits_toDigits (n : Nat) : Digits (Nat.toDigits 10 n) :=
  ⟨Nat.toDigits_ne_nil, fun _ hd => Nat.isDigit_of_mem_toDigits (by decide) (by decide) hd⟩

theorem digitsValue_toDigits (n : Nat) : Binary64.digitsValue (Nat.toDigits 10 n) = n := by
  rw [Binary64.digitsValue, Text.digitsFrom_eq (digits_toDigits n).2, Option.getD_some,
    Nat.ofDigitChars_toDigits (by decide) (by decide)]

theorem integer?_ofInt {i : Int} (hmin : Text.minInt32 ≤ i) (hmax : i ≤ Text.maxInt32) :
    JsonNumber.integer? { negative := i < 0, whole := Nat.toDigits 10 i.natAbs } = some i := by
  have hpow : Binary64.twoPow 63 = 9223372036854775808 := by decide
  unfold Text.minInt32 at hmin
  unfold Text.maxInt32 at hmax
  unfold JsonNumber.integer?
  simp only [digitsValue_toDigits, List.isEmpty_nil, Option.isNone_none, Bool.and_self, if_true]
  by_cases hi : i < 0
  · have hfits : (decide (0 < i.natAbs) && decide (i.natAbs ≤ Binary64.twoPow 63)) = true := by
      rw [hpow]
      simp only [Bool.and_eq_true, decide_eq_true_eq]
      omega
    have hvalue : -(i.natAbs : Int) = i := by omega
    rw [if_pos (decide_eq_true hi), if_pos hfits, hvalue]
  · have hfits : i.natAbs ≤ Text.maxNat64 := by
      unfold Text.maxNat64
      omega
    have hvalue : (i.natAbs : Int) = i := by omega
    rw [if_neg (by simpa using hi), if_pos hfits, hvalue]

end MemoryArbiter.Json
