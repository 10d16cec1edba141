import MemoryArbiter.FileTree
import Mathlib.Data.String.Basic

/-! # Reading a file

The parts of a path are what stands between its slashes, and a text is read back from its encoding.
-/

namespace MemoryArbiter

open String

/-! ### The parts of a path -/

/-- The parts when `l` is behind the last slash that was met and `m` is the part read so far. -/
theorem splitOnAux_slash (l m r : List Char) (parts : List String) :
    splitOnAux (ofList (l ++ m ++ r)) "/" ⟨utf8Len l⟩ ⟨utf8Len (l ++ m)⟩ 0 parts =
      parts.reverse ++ (List.splitOnPPrepend (· == '/') r m.reverse).map ofList := by
  induction r generalizing l m parts with
  | nil =>
    have hend := (atEnd_of_valid (l ++ m) []).mpr rfl
    rw [splitOnAux, if_pos hend, utf8Len_append, extract_of_valid]
    simp
  | cons c r ih =>
    have hend := (atEnd_of_valid (l ++ m) (c :: r)).not.mpr nofun
    have hget : (0 : Pos.Raw).get "/" = '/' := by decide
    have hnext : utf8Len (l ++ m) + c.utf8Size = utf8Len (l ++ m ++ [c]) := by
      simp [Nat.add_assoc]
    rw [splitOnAux, if_neg hend, get_of_valid, next_of_valid, hget, hnext, List.headD_cons,
      List.splitOnPPrepend_cons_eq_if]
    by_cases hc : c = '/'
    · subst hc
      have hslash : ((0 : Pos.Raw).next "/").atEnd "/" = true := by decide
      have hstop : (⟨utf8Len (l ++ m ++ ['/'])⟩ : Pos.Raw).unoffsetBy ((0 : Pos.Raw).next "/") =
          ⟨utf8Len l + utf8Len m⟩ := by
        rw [utf8Len_append, utf8Len_append]
        rfl
      have hrest := ih (l ++ m ++ ['/']) [] (ofList m :: parts)
      rw [List.append_nil, ← List.append_cons] at hrest
      simp only [beq_self_eq_true, if_true, hslash, hstop, extract_of_valid, hrest]
      simp
    · have hstay : (⟨utf8Len (l ++ m)⟩ : Pos.Raw).unoffsetBy 0 = ⟨utf8Len (l ++ m)⟩ := rfl
      have hrest := ih l (m ++ [c]) parts
      rw [← List.append_assoc, ← List.append_cons, List.reverse_concat] at hrest
      simp only [beq_eq_false_iff_ne.mpr hc, Bool.false_eq_true, if_false, hstay, next_of_valid,
        hnext, hrest]

theorem splitOn_slash (path : String) :
    path.splitOn "/" = (path.toList.splitOnP (· == '/')).map ofList := by
  have hparts := splitOnAux_slash [] [] path.toList []
  have hne : ("/" == "") = false := by decide
  rw [splitOn, hne, if_neg Bool.false_ne_true]
  simpa using hparts

/-! ### Encoded texts -/

theorem toList_loop (bytes : ByteArray) (i : Nat) (read : List UInt8) :
    ByteArray.toList.loop bytes i read = read.reverse ++ bytes.data.toList.drop i := by
  induction i, read using ByteArray.toList.loop.induct bytes with
  | case1 i read hi ih =>
    have hbyte : bytes.get! i = bytes.data.toList.get ⟨i, hi⟩ := getElem!_pos bytes.data i hi
    rw [ByteArray.toList.loop, if_pos hi, ih, hbyte, List.drop_eq_getElem_cons hi]
    simp
  | case2 i read hend =>
    rw [ByteArray.toList.loop, if_neg hend, List.drop_of_length_le (Nat.not_lt.mp hend),
      List.append_nil]

theorem decodeText?_encodeText (s : String) : decodeText? (encodeText s) = some s := by
  have hbytes : (encodeText s).toArray = s.toByteArray.data := by
    unfold encodeText ByteArray.toList
    rw [toList_loop]
    simp
  unfold decodeText? String.fromUTF8?
  rw [hbytes, dif_pos s.isValidUTF8]
  rfl

/-! ### Files -/

namespace FileTree

variable {t : FileTree} {path text : String} {names : List String}

theorem place_eq_walk (hnul : '\x00' ∉ path.toList) (hne : path ≠ "")
    (hsize : path.utf8ByteSize ≤ maxPathBytes) :
    t.place path = t.walk [] ((path.toList.splitOnP (· == '/')).map ofList) := by
  have hcontains : path.contains '\x00' = false := by
    rw [contains_char_eq]
    exact decide_eq_false hnul
  have hempty : path.isEmpty = false := by simpa using hne
  rw [place, hcontains, hempty, splitOn_slash]
  simp [Nat.not_lt.mpr hsize]

theorem readText_of_place (h : t.place path = .ok (.taken names (.file (encodeText text)))) :
    t.readText path = .ok text := by
  simp only [readText, readBytes, find, h, decodeText?_encodeText]

end FileTree

end MemoryArbiter
