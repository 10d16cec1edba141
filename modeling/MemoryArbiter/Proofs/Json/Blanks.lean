import MemoryArbiter.Json.Reader
import MemoryArbiter.Text.Blank

/-! # Blanks around a JSON text

A blank goes on with no token.  The four blanks of JSON change nothing at either end of a text: they
begin no token, and behind the text they complete what the end of the text completes anyway.  At any
other blank the scanner stops, so what is read is read without the blanks around it as well.
-/

namespace MemoryArbiter.Json

variable {c : Char} {cs : List Char}

theorem isBlank_of_isJsonBlank (hc : isJsonBlank c = true) : Text.isBlank c = true := by
  simp only [isJsonBlank, Bool.or_eq_true, beq_iff_eq] at hc
  rcases hc with ((rfl | rfl) | rfl) | rfl <;> decide

theorem toNat_of_isBlank (hc : Text.isBlank c = true) : c.toNat ≤ 0x20 ∨ 0x85 ≤ c.toNat := by
  simp only [Text.isBlank, Bool.or_eq_true, Bool.and_eq_true, decide_eq_true_eq, beq_iff_eq] at hc
  omega

theorem isWordChar_of_isBlank (hc : Text.isBlank c = true) : isWordChar c = false := by
  have hrange := toNat_of_isBlank hc
  rw [Bool.eq_false_iff]
  intro hword
  simp only [isWordChar, Bool.and_eq_true, decide_eq_true_eq, Char.le_def, UInt32.le_iff_toNat_le]
    at hword
  have hlow : 97 ≤ c.toNat := hword.1
  have hhigh : c.toNat ≤ 122 := hword.2
  omega

theorem isDigit_of_isBlank (hc : Text.isBlank c = true) : Text.isDigit c = false := by
  have hrange := toNat_of_isBlank hc
  have hdigit : ¬ ('0' ≤ c && c ≤ '9') = true := fun h => by
    simp only [Bool.and_eq_true, decide_eq_true_eq, Char.le_def, UInt32.le_iff_toNat_le] at h
    have hlow : 48 ≤ c.toNat := h.1
    have hhigh : c.toNat ≤ 57 := h.2
    omega
  rw [Text.isDigit, Text.digit?, if_neg hdigit]
  rfl

/-- A blank is none of the characters that mean something. -/
theorem ne_of_isBlank {d : Char} (hc : Text.isBlank c = true) (hd : Text.isBlank d = false) :
    c ≠ d := by
  rintro rfl
  exact Bool.false_ne_true (hd.symm.trans hc)

theorem isNumberChar_of_isBlank (hc : Text.isBlank c = true) : isNumberChar c = false := by
  have hplus : c ≠ '+' := ne_of_isBlank hc (by decide)
  have hminus : c ≠ '-' := ne_of_isBlank hc (by decide)
  have hpoint : c ≠ '.' := ne_of_isBlank hc (by decide)
  have hlower : c ≠ 'e' := ne_of_isBlank hc (by decide)
  have hupper : c ≠ 'E' := ne_of_isBlank hc (by decide)
  simp [isNumberChar, isDigit_of_isBlank hc, hplus, hminus, hpoint, hlower, hupper]

theorem punctuation?_of_isBlank (hc : Text.isBlank c = true) : punctuation? c = none := by
  unfold punctuation?
  split <;> first | rfl | exact absurd hc (by decide)

theorem Scan.begin?_of_isBlank (hc : Text.isBlank c = true) (tokens : List Token) :
    Scan.begin? tokens c = if isJsonBlank c then some { tokens := tokens } else none := by
  have hquote : c ≠ '"' := ne_of_isBlank hc (by decide)
  have hminus : c ≠ '-' := ne_of_isBlank hc (by decide)
  simp [Scan.begin?, hquote, hminus, isDigit_of_isBlank hc, isWordChar_of_isBlank hc,
    punctuation?_of_isBlank hc]

theorem Scan.finish_step_of_isBlank (hc : Text.isBlank c = true) (s : Scan) :
    (s.step c).bind Scan.finish = if isJsonBlank c then s.finish else none := by
  obtain ⟨mode, tokens⟩ := s
  cases mode with
  | between =>
    simp only [Scan.step, Scan.begin?_of_isBlank hc]
    split <;> rfl
  | word read =>
    simp only [Scan.step, isWordChar_of_isBlank hc, Bool.false_eq_true, if_false,
      Scan.begin?_of_isBlank hc, Scan.finish]
    cases word? read.reverse <;> cases isJsonBlank c <;> rfl
  | number read =>
    simp only [Scan.step, isNumberChar_of_isBlank hc, Bool.false_eq_true, if_false,
      Scan.begin?_of_isBlank hc, Scan.finish]
    cases number? read.reverse <;> cases isJsonBlank c <;> rfl
  | quote read =>
    -- a string goes on, or is broken by a line feed, a tab or a carriage return
    have hquote : c ≠ '"' := ne_of_isBlank hc (by decide)
    simp only [Scan.step, hquote, if_false, Scan.finish, ite_self]
    split
    · rfl
    · split <;> rfl
  | escape read =>
    simp only [Scan.step, Scan.finish, ite_self]
    split
    · rfl
    · cases escaped? c <;> rfl
  | unit read left value =>
    simp only [Scan.step, Scan.finish, ite_self]
    cases Text.hexDigit? c with
    | none => rfl
    | some digit =>
      simp only [Option.map_some, Option.bind_some]
      split <;> rfl

theorem tokens?_append_of_isBlank (hc : Text.isBlank c = true) (cs : List Char) :
    tokens? (cs ++ [c]) = if isJsonBlank c then tokens? cs else none := by
  unfold tokens?
  rw [List.foldlM_append]
  cases cs.foldlM Scan.step {} with
  | none => simp
  | some s => simpa using Scan.finish_step_of_isBlank hc s

theorem tokens?_cons_of_isBlank (hc : Text.isBlank c = true) (cs : List Char) :
    tokens? (c :: cs) = if isJsonBlank c then tokens? cs else none := by
  unfold tokens?
  rw [List.foldlM_cons]
  simp only [Scan.step, Scan.begin?_of_isBlank hc]
  split <;> rfl

theorem read?_append_blank (hc : isJsonBlank c = true) (cs : List Char) :
    read? (cs ++ [c]) = read? cs := by
  unfold read?
  rw [tokens?_append_of_isBlank (isBlank_of_isJsonBlank hc), if_pos hc]

/-! ### Trimming -/

variable {v : Json} {bs : List Char}

theorem read?_of_append_blanks (hbs : ∀ c ∈ bs, Text.isBlank c = true)
    (h : read? (cs ++ bs) = some v) : read? cs = some v := by
  induction bs generalizing cs with
  | nil => rwa [List.append_nil] at h
  | cons b bs ih =>
    rw [List.append_cons] at h
    have hshorter := ih (fun c hc => hbs c (List.mem_cons_of_mem b hc)) h
    rw [read?, tokens?_append_of_isBlank (hbs b List.mem_cons_self)] at hshorter
    split at hshorter
    · exact hshorter
    · contradiction

theorem read?_of_blanks_append (hbs : ∀ c ∈ bs, Text.isBlank c = true)
    (h : read? (bs ++ cs) = some v) : read? cs = some v := by
  induction bs with
  | nil => exact h
  | cons b bs ih =>
    rw [List.cons_append, read?, tokens?_cons_of_isBlank (hbs b List.mem_cons_self)] at h
    split at h
    · exact ih (fun c hc => hbs c (List.mem_cons_of_mem b hc)) h
    · contradiction

theorem read?_trim (h : read? cs = some v) : read? (Text.trim cs) = some v := by
  obtain ⟨before, behind, hcs, hbefore, hbehind⟩ := Text.exists_trim cs
  rw [hcs] at h
  exact read?_of_append_blanks hbehind (read?_of_blanks_append hbefore h)

end MemoryArbiter.Json
