import MemoryArbiter.Kernel.Procfs
import MemoryArbiter.Proofs.FileTree.Reading
import MemoryArbiter.Proofs.Script.Lines
import MemoryArbiter.Proofs.Text.Digits
import MemoryArbiter.Proofs.Text.Words

/-! # Labelled amounts

The amount under a label is the number that the first line with the label starts with, read exactly.
If that line has no number of 64 bits there, no other line stands in for it: free memory is an error
then, and a process counts as having no resident size.
-/

namespace MemoryArbiter

namespace Text

variable {label rest before behind contents : List Char} {n : Nat}

/-- The first line with the label goes on with `rest`. -/
def FirstLabelled (label rest contents : List Char) : Prop :=
  ∃ before after, lines contents = before ++ (label ++ rest) :: after ∧
    ∀ line ∈ before, ¬ label <+: line

/-- The first line with the label has `n` as its first word. -/
def Amounts (label : List Char) (n : Nat) (contents : List Char) : Prop :=
  ∃ rest word more, FirstLabelled label rest contents ∧ words rest = word :: more ∧
    SpelledNat64 n word

/-- There is no line with the label, or the first one has no word, or a first word that is no
number. -/
def Amountless (label contents : List Char) : Prop :=
  (∀ line ∈ lines contents, ¬ label <+: line) ∨
    ∃ rest, FirstLabelled label rest contents ∧ (words rest = [] ∨
      ∃ word more, words rest = word :: more ∧ ∀ n, ¬ SpelledNat64 n word)

/-- The text as it is written: the label at the start of a line and on no line before, blanks, the
decimal digits of `n`, and then the end of the line or a blank. -/
def Labels (label : List Char) (n : Nat) (contents : List Char) : Prop :=
  ∃ before blanks behind,
    contents = before ++ (label ++ (blanks ++ (Nat.toDigits 10 n ++ behind))) ∧
    Script.Ended before ∧ (∀ line ∈ lines before, ¬ label <+: line) ∧
    (∀ c ∈ blanks, isBlank c = true ∧ c ≠ '\n') ∧ ∀ c ∈ behind.head?, isBlank c = true

/-! ### The first line with the label -/

theorem labelledAmount?_of_firstLabelled (h : FirstLabelled label rest contents) :
    labelledAmount? label contents = (words rest).head?.bind nat64? := by
  unfold labelledAmount?
  rw [findSome?_after?_eq_some_iff.mpr h]
  rfl

theorem labelledAmount?_of_unlabelled (h : ∀ line ∈ lines contents, ¬ label <+: line) :
    labelledAmount? label contents = none := by
  unfold labelledAmount?
  rw [findSome?_after?_eq_none_iff.mpr h]
  rfl

theorem labelled_or_unlabelled (label contents : List Char) :
    (∃ rest, FirstLabelled label rest contents) ∨ ∀ line ∈ lines contents, ¬ label <+: line := by
  cases h : (lines contents).findSome? (after? label) with
  | none => exact .inr (findSome?_after?_eq_none_iff.mp h)
  | some rest => exact .inl ⟨rest, findSome?_after?_eq_some_iff.mp h⟩

/-! ### The amount -/

theorem labelledAmount?_of_amounts (h : Amounts label n contents) :
    labelledAmount? label contents = some n := by
  obtain ⟨rest, word, more, hfirst, hwords, hword⟩ := h
  rw [labelledAmount?_of_firstLabelled hfirst, hwords]
  exact nat64?_eq_some_iff.mpr hword

theorem labelledAmount?_of_amountless (h : Amountless label contents) :
    labelledAmount? label contents = none := by
  rcases h with h | ⟨rest, hfirst, hwords | ⟨word, more, hwords, hword⟩⟩
  · exact labelledAmount?_of_unlabelled h
  · rw [labelledAmount?_of_firstLabelled hfirst, hwords]
    rfl
  · rw [labelledAmount?_of_firstLabelled hfirst, hwords]
    exact Option.eq_none_iff_forall_ne_some.mpr fun n hn => hword n (nat64?_eq_some_iff.mp hn)

theorem amounts_or_amountless (label contents : List Char) :
    (∃ n, Amounts label n contents) ∨ Amountless label contents := by
  rcases labelled_or_unlabelled label contents with ⟨rest, hfirst⟩ | hnone
  · cases hwords : words rest with
    | nil => exact .inr (.inr ⟨rest, hfirst, .inl hwords⟩)
    | cons word more =>
      by_cases hword : ∃ n, SpelledNat64 n word
      · obtain ⟨n, hn⟩ := hword
        exact .inl ⟨n, rest, word, more, hfirst, hwords, hn⟩
      · exact .inr (.inr ⟨rest, hfirst, .inr ⟨word, more, hwords, not_exists.mp hword⟩⟩)
  · exact .inr (.inl hnone)

theorem labelledAmount?_eq_some_iff :
    labelledAmount? label contents = some n ↔ Amounts label n contents := by
  refine ⟨fun h => ?_, labelledAmount?_of_amounts⟩
  rcases amounts_or_amountless label contents with ⟨m, hm⟩ | hless
  · obtain rfl : m = n := Option.some.inj ((labelledAmount?_of_amounts hm).symm.trans h)
    exact hm
  · exact nomatch (labelledAmount?_of_amountless hless).symm.trans h

theorem labelledAmount?_eq_none_iff :
    labelledAmount? label contents = none ↔ Amountless label contents := by
  refine ⟨fun h => ?_, labelledAmount?_of_amountless⟩
  rcases amounts_or_amountless label contents with ⟨m, hm⟩ | hless
  · exact nomatch (labelledAmount?_of_amounts hm).symm.trans h
  · exact hless

example : labelledAmount? "VmRSS:".toList
    "VmRSS:\t18446744073709551616 kB\nVmRSS:\t5 kB".toList = none := by decide

/-! ### The amount as it is written -/

theorem lines_ended_append (h : Script.Ended before) (behind : List Char) :
    lines (before ++ behind) = lines before ++ lines behind := by
  rcases h with rfl | h
  · rfl
  · obtain ⟨start, rfl⟩ := List.getLast?_eq_some_iff.mp h
    rw [← List.append_cons, lines_append]

/-- The ending of a line takes no word from it. -/
theorem exists_closeLine_append (label : List Char) (hrest : rest ≠ []) :
    ∃ closed, closeLine (label ++ rest).reverse = label ++ closed ∧ words closed = words rest := by
  rcases closeLine_reverse (label ++ rest) with h | h
  · exact ⟨rest, h, rfl⟩
  · obtain ⟨closed, last, rfl⟩ := List.eq_nil_or_concat rest |>.resolve_left hrest
    rw [List.concat_eq_append, ← List.append_assoc] at h
    have hclosed := List.append_inj_left' h rfl
    have hlast : [last] = ['\r'] := List.append_inj_right' h rfl
    refine ⟨closed, ?_, ?_⟩
    · rw [List.concat_eq_append, ← List.append_assoc, ← hclosed]
    · rw [List.concat_eq_append, hlast, words_append_return]

theorem exists_lines_eq_cons (hline : '\n' ∉ label ++ rest) (hrest : rest ≠ [])
    (hbehind : behind = [] ∨ ∃ more, behind = '\n' :: more) :
    ∃ closed after, lines (label ++ rest ++ behind) = (label ++ closed) :: after ∧
      words closed = words rest := by
  rcases hbehind with rfl | ⟨more, rfl⟩
  · have hempty : (label ++ rest).isEmpty = false := by simp [hrest]
    refine ⟨rest, [], ?_, rfl⟩
    rw [List.append_nil, lines_of_not_mem hline, hempty]
    rfl
  · obtain ⟨closed, hclosed, hwords⟩ := exists_closeLine_append label hrest
    exact ⟨closed, lines more, by rw [lines_line_append hline, hclosed], hwords⟩

theorem isBlank_of_mem_toDigits {c : Char} (hc : c ∈ Nat.toDigits 10 n) : isBlank c = false := by
  have hdigit : isDigit c = true := by
    rw [isDigit_eq]
    exact Nat.isDigit_of_mem_toDigits (by decide) (by decide) hc
  rw [Bool.eq_false_iff]
  intro hblank
  exact nomatch (Json.isDigit_of_isBlank hblank).symm.trans hdigit

theorem amounts_of_labels (hlabel : '\n' ∉ label) (hn : n ≤ maxNat64)
    (h : Labels label n contents) : Amounts label n contents := by
  obtain ⟨before, blanks, behind, rfl, hended, hbefore, hblanks, hbehind⟩ := h
  obtain ⟨tail, ending, rfl, htail, hending⟩ := exists_first_line behind
  have hne : Nat.toDigits 10 n ≠ [] := Nat.toDigits_ne_nil
  have hhead : ∀ c ∈ tail.head?, isBlank c = true := by
    intro c hc
    exact hbehind c (by simp [List.head?_append, Option.mem_def.mp hc])
  have hwords :
      words (blanks ++ (Nat.toDigits 10 n ++ tail)) = Nat.toDigits 10 n :: words tail := by
    rw [words_blanks_append fun c hc => (hblanks c hc).1]
    exact words_word_append hne (fun c hc => isBlank_of_mem_toDigits hc) hhead
  have hline : '\n' ∉ label ++ (blanks ++ (Nat.toDigits 10 n ++ tail)) := by
    have hdigits : '\n' ∉ Nat.toDigits 10 n :=
      fun hc => absurd (isBlank_of_mem_toDigits hc) (by decide)
    have hblank : '\n' ∉ blanks := fun hc => (hblanks _ hc).2 rfl
    simp [hlabel, hblank, hdigits, htail]
  obtain ⟨closed, after, hlines, hclosed⟩ := exists_lines_eq_cons hline (by simp [hne]) hending
  refine ⟨closed, _, _, ⟨lines before, after, ?_, hbefore⟩, hclosed.trans hwords,
    spelledNat64_toDigits hn⟩
  rw [lines_ended_append hended, ← hlines]
  simp

end Text

namespace Procfs

variable {k : Procfs} {contents : String} {pid : Int} {n : Nat}

theorem readBuffer_of_contents (h : k.files.readText k.bufferPath = .ok contents) :
    k.readBuffer = match labelledAmount? bufferLabel contents.toList with
      | some kb => .ok kb
      | none => .error (.parse k.bufferPath "no MemAvailable line") := by
  cases hamount : labelledAmount? bufferLabel contents.toList <;>
    simp only [readBuffer, h, hamount]

theorem resident_of_contents (h : k.files.readText (k.processPath pid "status") = .ok contents) :
    k.resident pid = .ok ((labelledAmount? residentLabel contents.toList).getD 0) := by
  simp only [resident, h]

/-- Free memory and resident sizes are read exactly or not at all. -/
structure ReadsAmounts (k : Procfs) : Prop where
  buffer : ∀ contents n, k.files.readText k.bufferPath = .ok contents → n ≤ Text.maxNat64 →
    Text.Labels bufferLabel n contents.toList → k.readBuffer = .ok n
  bufferExact : ∀ contents n, k.files.readText k.bufferPath = .ok contents →
    (k.readBuffer = .ok n ↔ Text.Amounts bufferLabel n contents.toList)
  bufferLess : ∀ contents, k.files.readText k.bufferPath = .ok contents →
    (k.readBuffer = .error (.parse k.bufferPath "no MemAvailable line") ↔
      Text.Amountless bufferLabel contents.toList)
  resident : ∀ pid contents n, k.files.readText (k.processPath pid "status") = .ok contents →
    n ≤ Text.maxNat64 → Text.Labels residentLabel n contents.toList → k.resident pid = .ok n
  residentExact : ∀ pid contents n, k.files.readText (k.processPath pid "status") = .ok contents →
    (k.resident pid = .ok n ↔ Text.Amounts residentLabel n contents.toList ∨
      Text.Amountless residentLabel contents.toList ∧ n = 0)

theorem reads_amounts (k : Procfs) : k.ReadsAmounts where
  buffer contents n hread hn hlabels := by
    have hamounts := Text.amounts_of_labels (by decide) hn hlabels
    rw [readBuffer_of_contents hread, Text.labelledAmount?_of_amounts hamounts]
  bufferExact contents n hread := by
    rw [readBuffer_of_contents hread, ← Text.labelledAmount?_eq_some_iff]
    cases labelledAmount? bufferLabel contents.toList <;> simp
  bufferLess contents hread := by
    rw [readBuffer_of_contents hread, ← Text.labelledAmount?_eq_none_iff]
    cases labelledAmount? bufferLabel contents.toList <;> simp
  resident pid contents n hread hn hlabels := by
    have hamounts := Text.amounts_of_labels (by decide) hn hlabels
    rw [resident_of_contents hread, Text.labelledAmount?_of_amounts hamounts]
    rfl
  residentExact pid contents n hread := by
    rw [resident_of_contents hread, ← Text.labelledAmount?_eq_some_iff,
      ← Text.labelledAmount?_eq_none_iff]
    cases labelledAmount? residentLabel contents.toList <;> simp [eq_comm]

/-- Free memory as given, and the status of the process 7. -/
def withFiles (buffer status : String) : Procfs where
  root := ""
  files := ⟨[(["meminfo"], .file (encodeText buffer)), (["7"], .directory),
    (["7", "status"], .file (encodeText status))]⟩

theorem readText_withFiles (k : Procfs) {buffer status : String} (h : k = withFiles buffer status) :
    k.files.readText k.bufferPath = .ok buffer ∧
      k.files.readText (k.processPath 7 "status") = .ok status := by
  subst h
  have hbuffer : (withFiles buffer status).files.place "meminfo" =
      .ok (.taken ["meminfo"] (.file (encodeText buffer))) := by
    rw [FileTree.place_eq_walk (by decide) (by decide) (by decide)]
    rfl
  have hstatus : (withFiles buffer status).files.place "7/status" =
      .ok (.taken ["7", "status"] (.file (encodeText status))) := by
    rw [FileTree.place_eq_walk (by decide) (by decide) (by decide)]
    rfl
  have hpath : FileTree.join (FileTree.join "" (toString (7 : Int))) "status" = "7/status" := by
    decide +kernel
  refine ⟨FileTree.readText_of_place hbuffer, ?_⟩
  rw [show (withFiles buffer status).processPath 7 "status" = "7/status" from hpath]
  exact FileTree.readText_of_place hstatus

/-- The largest amount, behind another line, and the smallest, at the end of the text. -/
theorem reads_amounts_of_files :
    let k := withFiles "MemTotal: 8 kB\r\nMemAvailable:\t18446744073709551615 kB\n" "VmRSS:0"
    k.readBuffer = .ok Text.maxNat64 ∧ k.resident 7 = .ok 0 := by
  intro k
  obtain ⟨hbuffer, hstatus⟩ := readText_withFiles k rfl
  have hmeminfo : Text.Labels bufferLabel Text.maxNat64
      "MemTotal: 8 kB\r\nMemAvailable:\t18446744073709551615 kB\n".toList := by
    refine ⟨"MemTotal: 8 kB\r\n".toList, ['\t'], " kB\n".toList, by decide, .inr (by decide), ?_,
      List.forall_mem_singleton.mpr (by decide), ?_⟩
    · have hlines : Text.lines "MemTotal: 8 kB\r\n".toList = ["MemTotal: 8 kB".toList] := by
        decide
      rw [hlines]
      exact List.forall_mem_singleton.mpr (by decide)
    · rintro _ ⟨⟩
      rfl
  have hresident : Text.Labels residentLabel 0 "VmRSS:0".toList :=
    ⟨[], [], [], by decide, .inl rfl, nofun, nofun, nofun⟩
  exact ⟨(reads_amounts k).buffer _ _ hbuffer (by decide) hmeminfo,
    (reads_amounts k).resident 7 _ _ hstatus (by decide) hresident⟩

end Procfs

end MemoryArbiter
