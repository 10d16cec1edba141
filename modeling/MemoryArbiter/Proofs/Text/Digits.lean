import MemoryArbiter.Text.Integer

/-! # Decimal digits

A number of 64 bits is read off its ASCII digits, with or without a plus sign in front.  Every other
text is refused, also digits of a number that is too large.
-/

namespace MemoryArbiter.Text

variable {c : Char} {cs ds : List Char} {n m : Nat}

theorem isDigit_eq (c : Char) : isDigit c = c.isDigit := by
  simp only [isDigit, digit?, Char.isDigit]
  split <;> simp_all [Char.le_def]

theorem digit?_of_isDigit (hc : c.isDigit = true) : digit? c = some (c.toNat - '0'.toNat) := by
  have hdigit : (digit? c).isSome = true := (isDigit_eq c).trans hc
  unfold digit? at hdigit ⊢
  split
  · rfl
  · next h => simp [h] at hdigit

theorem digitsFrom_eq (h : ∀ d ∈ ds, d.isDigit = true) (n : Nat) :
    digitsFrom n ds = some (Nat.ofDigitChars 10 ds n) := by
  induction ds generalizing n with
  | nil => rfl
  | cons d ds ih =>
    rw [digitsFrom, digit?_of_isDigit (h d List.mem_cons_self), Option.bind_some,
      ih fun c hc => h c (List.mem_cons_of_mem d hc)]
    rfl

theorem digitsFrom_eq_some_iff : digitsFrom n ds = some m ↔
    (∀ d ∈ ds, d.isDigit = true) ∧ Nat.ofDigitChars 10 ds n = m := by
  constructor
  · intro h
    have hds : ∀ d ∈ ds, d.isDigit = true := by
      induction ds generalizing n with
      | nil => nofun
      | cons d ds ih =>
        obtain ⟨v, hv, hrest⟩ := Option.bind_eq_some_iff.mp h
        refine List.forall_mem_cons.mpr ⟨?_, ih hrest⟩
        rw [← isDigit_eq, isDigit, hv]
        rfl
    exact ⟨hds, Option.some.inj ((digitsFrom_eq hds n).symm.trans h)⟩
  · rintro ⟨hds, rfl⟩
    exact digitsFrom_eq hds n

theorem digits?_eq_some_iff : digits? ds = some n ↔
    ds ≠ [] ∧ (∀ d ∈ ds, d.isDigit = true) ∧ Nat.ofDigitChars 10 ds 0 = n := by
  cases ds with
  | nil => simp [digits?]
  | cons d ds => exact digitsFrom_eq_some_iff.trans (and_iff_right (List.cons_ne_nil d ds)).symm

/-! ### Numbers of 64 bits -/

/-- A plus sign or none, and then the digits of a number of 64 bits. -/
def SpelledNat64 (n : Nat) (cs : List Char) : Prop :=
  ∃ ds, (cs = ds ∨ cs = '+' :: ds) ∧ ds ≠ [] ∧ (∀ d ∈ ds, d.isDigit = true) ∧
    Nat.ofDigitChars 10 ds 0 = n ∧ n ≤ maxNat64

theorem nat64?_eq_some_iff : nat64? cs = some n ↔ SpelledNat64 n cs := by
  have hread : ∀ ds, (digits? ds).filter (fun v => v ≤ maxNat64) = some n ↔
      ds ≠ [] ∧ (∀ d ∈ ds, d.isDigit = true) ∧ Nat.ofDigitChars 10 ds 0 = n ∧ n ≤ maxNat64 := by
    intro ds
    rw [Option.filter_eq_some_iff, digits?_eq_some_iff, decide_eq_true_iff, and_assoc, and_assoc]
  by_cases hplus : ∃ ds, cs = '+' :: ds
  · obtain ⟨ds, rfl⟩ := hplus
    refine (hread ds).trans ⟨fun h => ⟨ds, .inr rfl, h⟩, ?_⟩
    rintro ⟨es, heq | heq, h⟩
    · -- the plus sign is no digit
      exact absurd (h.2.1 '+' (heq ▸ List.mem_cons_self)) (by decide)
    · obtain rfl := (List.cons.inj heq).2
      exact h
  · have hsign : nat64? cs = (digits? cs).filter fun v => v ≤ maxNat64 := by
      unfold nat64?
      split
      · exact absurd ⟨_, rfl⟩ hplus
      · rfl
    rw [hsign, hread cs]
    refine ⟨fun h => ⟨cs, .inl rfl, h⟩, ?_⟩
    rintro ⟨es, rfl | rfl, h⟩
    · exact h
    · exact absurd ⟨es, rfl⟩ hplus

theorem spelledNat64_toDigits (hn : n ≤ maxNat64) : SpelledNat64 n (Nat.toDigits 10 n) :=
  ⟨Nat.toDigits 10 n, .inl rfl, Nat.toDigits_ne_nil,
    fun _ hd => Nat.isDigit_of_mem_toDigits (by decide) (by decide) hd,
    Nat.ofDigitChars_toDigits (by decide) (by decide), hn⟩

end MemoryArbiter.Text
