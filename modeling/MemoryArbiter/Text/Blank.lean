/-! # Blanks, words and trimming

Texts are taken apart as lists of characters.  A blank is a character with the Unicode property
White_Space; words are the longest runs without one.
-/

namespace MemoryArbiter.Text

/-- The characters with the property White_Space. -/
def isBlank (c : Char) : Bool :=
  let n := c.toNat
  9 ≤ n && n ≤ 13 || n == 0x20 || n == 0x85 || n == 0xA0 || n == 0x1680
    || 0x2000 ≤ n && n ≤ 0x200A || n == 0x2028 || n == 0x2029 || n == 0x202F || n == 0x205F
    || n == 0x3000

/-- Without the blanks at either end. -/
def trim (cs : List Char) : List Char :=
  ((cs.dropWhile isBlank).reverse.dropWhile isBlank).reverse

theorem trim_append_blank {c : Char} (h : isBlank c = true) (cs : List Char) :
    trim (cs ++ [c]) = trim cs := by
  unfold trim
  rw [List.dropWhile_append]
  split
  · next hempty => simp [List.isEmpty_iff.mp hempty, List.dropWhile, h]
  · simp [h]

theorem trim_blank_cons {c : Char} (h : isBlank c = true) (cs : List Char) :
    trim (c :: cs) = trim cs := by
  simp [trim, List.dropWhile, h]

/-- Trimming drops blanks only. -/
theorem exists_trim (cs : List Char) : ∃ before behind, cs = before ++ (trim cs ++ behind) ∧
    (∀ c ∈ before, isBlank c = true) ∧ ∀ c ∈ behind, isBlank c = true := by
  have hbehind := List.takeWhile_append_dropWhile (p := isBlank)
    (l := (cs.dropWhile isBlank).reverse)
  refine ⟨cs.takeWhile isBlank, ((cs.dropWhile isBlank).reverse.takeWhile isBlank).reverse, ?_,
    List.all_eq_true.mp List.all_takeWhile,
    fun c hc => List.all_eq_true.mp List.all_takeWhile c (List.mem_reverse.mp hc)⟩
  rw [trim, ← List.reverse_append, hbehind, List.reverse_reverse, List.takeWhile_append_dropWhile]

theorem exists_trim_cons {c : Char} (h : isBlank c = false) (cs : List Char) :
    ∃ rest, trim (c :: cs) = c :: rest := by
  have hfirst : (c :: cs).dropWhile isBlank = c :: cs := by simp [List.dropWhile, h]
  unfold trim
  rw [hfirst, List.reverse_cons, List.dropWhile_append]
  split
  · exact ⟨[], by simp [List.dropWhile, h]⟩
  · exact ⟨_, List.reverse_append⟩

/-- The words of `cs`, the first one continuing `word`, which is kept in reverse. -/
def wordsFrom (word : List Char) : List Char → List (List Char)
  | [] => if word.isEmpty then [] else [word.reverse]
  | c :: cs =>
    if isBlank c then
      if word.isEmpty then wordsFrom [] cs else word.reverse :: wordsFrom [] cs
    else wordsFrom (c :: word) cs

def words (cs : List Char) : List (List Char) := wordsFrom [] cs

/-- What follows `key` in `cs`, if `cs` begins with it. -/
def after? (key : List Char) (cs : List Char) : Option (List Char) :=
  match key, cs with
  | [], cs => some cs
  | _ :: _, [] => none
  | k :: key, c :: cs => if k = c then after? key cs else none

theorem after?_eq_some_iff {key cs rest : List Char} :
    after? key cs = some rest ↔ cs = key ++ rest := by
  induction key generalizing cs with
  | nil => simp [after?, eq_comm]
  | cons k key ih =>
    cases cs with
    | nil => simp [after?]
    | cons c cs =>
      by_cases h : k = c
      · simp [after?, h, ih]
      · simp [after?, h, Ne.symm h]

end MemoryArbiter.Text
