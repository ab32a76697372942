import SceneConvert.Mesh.PlyHeader
import SceneConvert.Proofs.Files.Delivery
import SceneConvert.Proofs.Text.Avoids

/-!
# SceneConvert.Proofs.Mesh.HeaderLines

The lines at the start of a file of bytes, and the forms of single lines of a mesh file header.

* `textBytes`, `textLines_append`: a text line by line, whatever bytes come behind it.
* `PlyLine.number_digits`, `PlyLine.identifier_word`: readers at the end of what they read.
* `PlyLine.ofChars_element`: a line that declares an element, with the count in digits.
-/

namespace SceneConvert

/-! ## Bytes -/

def textBytes (s : String) : List UInt8 := s.toUTF8.data.toList

theorem textBytes_append (s t : String) : textBytes (s ++ t) = textBytes s ++ textBytes t := by
  simp [textBytes, String.toUTF8_eq_toByteArray]

theorem toList_toUTF8_append (s : String) (bytes : List UInt8) :
    (s.toUTF8 ++ ⟨bytes.toArray⟩ : ByteArray).data.toList = textBytes s ++ bytes := by
  simp [textBytes]

theorem textLine_textBytes (s : String) : textLine (textBytes s) = .ok s := by
  rw [textLine, textBytes, Array.toArray_toList, fromUTF8?_toUTF8]

theorem eq_newline_of_mem_utf8EncodeChar {c : Char} (h : 10 ∈ String.utf8EncodeChar c) : c = '\n' := by
  have hten : (10 : UInt8).toNat = 10 := rfl
  unfold String.utf8EncodeChar at h
  dsimp only at h
  -- a single byte is the character itself, and of several bytes each is at least 128
  split at h
  · have hc : c.val.toNat = 10 := by
      simp only [List.mem_singleton, ← UInt8.toNat_inj, UInt8.toNat_ofNat', hten] at h
      omega
    exact Char.ext (UInt32.toNat_inj.1 hc)
  · exfalso
    split at h
    · simp only [List.mem_cons, List.not_mem_nil, or_false, ← UInt8.toNat_inj, UInt8.toNat_ofNat',
        hten] at h
      omega
    · split at h <;>
        simp only [List.mem_cons, List.not_mem_nil, or_false, ← UInt8.toNat_inj,
          UInt8.toNat_ofNat', hten] at h <;>
        omega

theorem Avoids.newline_bytes {s : String} (h : Avoids '\n' s) : 10 ∉ textBytes s := by
  intro hmem
  have hflat : textBytes s = s.toList.flatMap String.utf8EncodeChar := by
    conv => lhs; rw [textBytes, String.toUTF8_eq_toByteArray, ← String.ofList_toList (s := s),
      String.toByteArray_ofList]
    simp [List.utf8Encode]
  rw [hflat] at hmem
  obtain ⟨c, hc, hbreak⟩ := List.mem_flatMap.1 hmem
  exact h (eq_newline_of_mem_utf8EncodeChar hbreak ▸ hc)

theorem byteLines_append {bs : List UInt8} (h : 10 ∉ bs) (line rest : List UInt8) :
    byteLines line (bs ++ 10 :: rest) = (line.reverse ++ bs ++ [10]) :: byteLines [] rest := by
  induction bs generalizing line with
  | nil => simp [byteLines]
  | cons b bs ih =>
    have hb : b ≠ 10 := fun e => h (e ▸ List.mem_cons_self)
    rw [List.cons_append, byteLines, if_neg hb, ih fun hbs => h (List.mem_cons_of_mem b hbs)]
    simp

theorem textLines_append {ls : List String} (h : ∀ l ∈ ls, Avoids '\n' l) (rest : List UInt8) :
    (byteLines [] (textBytes (String.join (ls.map (· ++ "\n"))) ++ rest)).map textLine =
      ls.map (fun l => .ok (l ++ "\n")) ++ (byteLines [] rest).map textLine := by
  induction ls with
  | nil => simp [textBytes]
  | cons l ls ih =>
    have hl : textBytes (l ++ "\n") = textBytes l ++ [10] := textBytes_append l "\n"
    have hline := textLine_textBytes (l ++ "\n")
    rw [hl] at hline
    rw [List.map_cons, String.join_cons, textBytes_append, hl, List.append_assoc, List.append_assoc,
      List.singleton_append, byteLines_append (h l List.mem_cons_self).newline_bytes, List.map_cons,
      List.reverse_nil, List.nil_append, hline, ih fun l' hl' => h l' (List.mem_cons_of_mem l hl')]
    rfl

/-! ## Lines -/

namespace PlyLine

variable {c : Char} {cs : List Char}

theorem bind_ok {β γ : Type} {m : PlyReader β} {k : β → PlyReader γ} {b : β} {rest : List Char}
    (h : m cs = .ok (b, rest)) : (m >>= k) cs = k b rest := by
  change (m cs >>= fun (b, rest) => k b rest) = _
  rw [h]
  rfl

theorem bind_error {β γ : Type} {m : PlyReader β} {k : β → PlyReader γ} {e : PlyLineFault}
    (h : m cs = .error e) : (m >>= k) cs = .error e := by
  change (m cs >>= fun (b, rest) => k b rest) = _
  rw [h]
  rfl

theorem spaces_single (h : isSpace c = false) : spaces (' ' :: c :: cs) = .ok ((), c :: cs) := by
  have hblank : isSpace ' ' = true := rfl
  simp [spaces, hblank, h]

theorem identifier_word {d : Char} {w : List Char} (hd : isIdentifierStart d = true)
    (hw : ∀ e ∈ w, isIdentifierChar e = true) (hc : isIdentifierChar c = false) :
    identifier (d :: w ++ c :: cs) = .ok (String.ofList (d :: w), c :: cs) := by
  rw [List.cons_append, identifier, if_pos hd, List.takeWhile_append_of_pos hw,
    List.dropWhile_append_of_pos hw]
  simp [hc]

/-- A number is read to its end, unless it is too large. -/
theorem number_digits {ds : List Char} (hne : ds ≠ []) (hds : ∀ d ∈ ds, d.isDigit = true)
    (hc : c.isDigit = false) :
    number (ds ++ c :: cs) =
      if counterMax < Nat.ofDigitChars 10 ds 0 then .error .overflow
      else .ok (Nat.ofDigitChars 10 ds 0, c :: cs) := by
  rw [number, List.takeWhile_append_of_pos hds, List.dropWhile_append_of_pos hds]
  simp [hc, hne]

theorem spaces_number (n : Nat) (hc : c.isDigit = false) {β : Type} (k : Nat → PlyReader β) :
    (spaces >>= fun _ => number >>= k) (' ' :: ((toString n).toList ++ c :: cs)) =
      if counterMax < n then .error .overflow else k n (c :: cs) := by
  have hdigits : ∀ d ∈ (toString n).toList, d.isDigit = true := fun d hd => by
    rw [Nat.toString_eq_repr, Nat.toList_repr] at hd
    exact Nat.isDigit_of_mem_toDigits (by decide) (by decide) hd
  have hvalue : Nat.ofDigitChars 10 (toString n).toList 0 = n := by
    rw [Nat.toString_eq_repr, Nat.toList_repr, Nat.ofDigitChars_ten_toDigits]
  have hne : (toString n).toList ≠ [] := by
    rw [Nat.toString_eq_repr, Nat.toList_repr]
    exact Nat.toDigits_ne_nil
  have hread : number ((toString n).toList ++ c :: cs) = _ := number_digits hne hdigits hc
  rw [hvalue] at hread
  obtain ⟨d, ds, hds⟩ := List.exists_cons_of_ne_nil hne
  have hspace : isSpace d = false := by
    have hd : d.isDigit = true := hdigits d (hds ▸ List.mem_cons_self)
    simp only [isSpace, Bool.or_eq_false_iff, beq_eq_false_iff_ne]
    constructor <;> rintro rfl <;> exact absurd hd (by decide)
  rw [hds, List.cons_append] at hread ⊢
  rw [bind_ok (spaces_single hspace)]
  by_cases hlarge : counterMax < n
  · rw [if_pos hlarge] at hread ⊢
    exact bind_error hread
  · rw [if_neg hlarge] at hread ⊢
    exact bind_ok hread

theorem ofChars_element {d : Char} {w : List Char} (hd : isIdentifierStart d = true)
    (hspace : isSpace d = false) (hw : w.all isIdentifierChar = true) (n : Nat) :
    ofChars ("element".toList ++ ' ' :: d :: w ++ ' ' :: ((toString n).toList ++ ['\n'])) =
      if counterMax < n then .error .overflow else .ok (.element ⟨String.ofList (d :: w), n, []⟩) := by
  have hbody : elementBody (' ' :: d :: w ++ ' ' :: ((toString n).toList ++ ['\n'])) =
      if counterMax < n then .error .overflow
      else .ok (.element ⟨String.ofList (d :: w), n, []⟩, ['\n']) := by
    rw [elementBody]
    refine (bind_ok (spaces_single hspace)).trans
      ((bind_ok (identifier_word hd (List.all_eq_true.1 hw) rfl)).trans ?_)
    exact spaces_number n rfl _
  rw [List.append_assoc]
  change elementBody (' ' :: d :: w ++ ' ' :: ((toString n).toList ++ ['\n'])) >>= _ = _
  rw [hbody]
  split <;> rfl

end PlyLine

end SceneConvert
