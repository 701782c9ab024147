import Mathlib.Logic.Relation
import Proxyshop.Merchant.Redemption

/-!
# Spellings of one code

Spellings of a code that differ in case, width, white space or the characters that Crockford's
alphabet leaves out have one canonical form, and minted codes are their own.
-/

namespace Proxyshop.Merchant

open Python

/-- One character of a code spelled otherwise, or white space put in. -/
inductive Variation : Str → Str → Prop
  | spaced (before after : Str) {c : CodePoint} (space : c.isSpace = true) :
      Variation (before ++ after) (before ++ [c] ++ after)
  | cased (before after : Str) {c : CodePoint} (letter : 97 ≤ c.val ∧ c.val ≤ 122) :
      Variation (before ++ [c] ++ after) (before ++ [upperAscii c] ++ after)
  | widened (before after : Str) {c : CodePoint} (visible : 0x21 ≤ c.val ∧ c.val ≤ 0x7E) :
      Variation (before ++ [c] ++ after) (before ++ [c + 0xFEE0] ++ after)
  | confused (before after : Str) {c : CodePoint}
      (confusable : c = CodePoint.ofChar 'I' ∨ c = CodePoint.ofChar 'L' ∨ c = CodePoint.ofChar 'O') :
      Variation (before ++ [c] ++ after) (before ++ [crockfordFold c] ++ after)

/-- The texts differ only in case, width, white space and confusable characters. -/
def Respelled : Str → Str → Prop := Relation.EqvGen Variation

section Folding

theorem val_widened {c : CodePoint} (visible : 0x21 ≤ c.val ∧ c.val ≤ 0x7E) :
    (c + 0xFEE0).val = c.val + 0xFEE0 := by
  rw [Fin.val_add]
  show (c.val + 0xFEE0) % 0x110000 = _
  omega

theorem narrow_widened {c : CodePoint} (visible : 0x21 ≤ c.val ∧ c.val ≤ 0x7E) :
    narrow (c + 0xFEE0) = c := by
  have wide : isFullWidth (c + 0xFEE0) = true := by
    simp only [isFullWidth, val_widened visible, Bool.and_eq_true, decide_eq_true_eq]
    omega
  rw [narrow, if_pos wide]
  apply Fin.ext
  rw [Fin.sub_val_of_le, val_widened visible]
  · exact Nat.add_sub_cancel ..
  · show (0xFEE0 : Nat) ≤ (c + 0xFEE0).val
    rw [val_widened visible]
    omega

theorem isPlain_widened {c : CodePoint} (visible : 0x21 ≤ c.val ∧ c.val ≤ 0x7E) :
    isPlain (c + 0xFEE0) = true := by
  simp only [isPlain, isFullWidth, val_widened visible, Bool.or_eq_true, Bool.and_eq_true,
    decide_eq_true_eq]
  omega

theorem narrow_of_isAscii {c : CodePoint} (ascii : c.isAscii = true) : narrow c = c := by
  simp only [CodePoint.isAscii, decide_eq_true_eq] at ascii
  have thin : isFullWidth c ≠ true := by
    simp only [isFullWidth, ne_eq, Bool.and_eq_true, decide_eq_true_eq]
    omega
  have near : isWideSpace c ≠ true := by
    simp only [isWideSpace, ne_eq, Bool.or_eq_true, Bool.and_eq_true, decide_eq_true_eq, beq_iff_eq]
    omega
  rw [narrow, if_neg thin, if_neg near]

theorem isSpace_narrow {c : CodePoint} (space : c.isSpace = true) : (narrow c).isSpace = true := by
  have thin : isFullWidth c ≠ true := by
    simp only [CodePoint.isSpace, Bool.or_eq_true, Bool.and_eq_true, decide_eq_true_eq,
      beq_iff_eq] at space
    simp only [isFullWidth, ne_eq, Bool.and_eq_true, decide_eq_true_eq]
    omega
  rw [narrow, if_neg thin]
  split
  · decide
  · exact space

theorem isAscii_narrow {c : CodePoint} (plain : isPlain c = true) (solid : (narrow c).isSpace = false) :
    (narrow c).isAscii = true := by
  rw [isPlain, Bool.or_eq_true, Bool.or_eq_true] at plain
  rcases plain with (ascii | wide) | space
  · rw [narrow_of_isAscii ascii]
    exact ascii
  · rw [narrow, if_pos wide]
    simp only [isFullWidth, Bool.and_eq_true, decide_eq_true_eq] at wide
    have value : (c - 0xFEE0).val = c.val - 0xFEE0 := by
      apply Fin.sub_val_of_le
      show (0xFEE0 : Nat) ≤ c.val
      omega
    simp only [CodePoint.isAscii, value, decide_eq_true_eq]
    omega
  · rw [isSpace_narrow space] at solid
    cases solid

def foldPlain (s : Str) : Str :=
  ((s.map narrow).filter fun c => !c.isSpace).map fun c => crockfordFold (upperAscii c)

theorem foldPlain_append (s t : Str) : foldPlain (s ++ t) = foldPlain s ++ foldPlain t := by
  simp [foldPlain]

theorem canonicalCode_plain [CodeUnicode] {s : Str} (plain : s.all isPlain = true) :
    canonicalCode s = foldPlain s := by
  have ascii : Str.isAscii ((s.map narrow).filter fun c => !c.isSpace) = true := by
    rw [Str.isAscii, List.all_eq_true]
    intro c member
    obtain ⟨narrowed, solid⟩ := List.mem_filter.mp member
    obtain ⟨d, spelled, rfl⟩ := List.mem_map.mp narrowed
    exact isAscii_narrow (List.all_eq_true.mp plain d spelled) (by simpa using solid)
  rw [canonicalCode, CodeUnicode.nfkc_plain s plain, CodeUnicode.upper_ascii _ ascii, List.map_map]
  rfl

theorem foldPlain_singleton {c d : CodePoint}
    (same : crockfordFold (upperAscii (narrow c)) = crockfordFold (upperAscii (narrow d)))
    (solid : (narrow c).isSpace = (narrow d).isSpace) : foldPlain [c] = foldPlain [d] := by
  simp only [foldPlain, List.map_cons, List.map_nil, List.filter_cons, List.filter_nil, solid]
  split
  · simp [same]
  · rfl

end Folding

section Canonical

theorem foldPlain_respelled (before after : Str) {c d : CodePoint} (same : foldPlain [c] = foldPlain [d]) :
    foldPlain (before ++ [c] ++ after) = foldPlain (before ++ [d] ++ after) := by
  simp only [foldPlain_append, same]

theorem Variation.fold {s t : Str} (variation : Variation s t) : foldPlain s = foldPlain t := by
  cases variation with
  | @spaced before after c space =>
      have nothing : foldPlain [c] = [] := by simp [foldPlain, isSpace_narrow space]
      rw [foldPlain_append, foldPlain_append, foldPlain_append, nothing, List.append_nil]
  | @cased before after c letter =>
      have value : (upperAscii c).val = c.val - 32 := by
        rw [upperAscii, if_pos letter]
        apply Fin.sub_val_of_le
        show (32 : Nat) ≤ c.val
        omega
      have lower : c.isAscii = true := by simp [CodePoint.isAscii]; omega
      have upper : (upperAscii c).isAscii = true := by simp [CodePoint.isAscii, value]; omega
      have again : upperAscii (upperAscii c) = upperAscii c := if_neg (by rw [value]; omega)
      apply foldPlain_respelled
      apply foldPlain_singleton
      · rw [narrow_of_isAscii lower, narrow_of_isAscii upper, again]
      · rw [narrow_of_isAscii lower, narrow_of_isAscii upper, Bool.eq_iff_iff]
        simp only [CodePoint.isSpace, value, Bool.or_eq_true, Bool.and_eq_true, decide_eq_true_eq,
          beq_iff_eq]
        omega
  | @widened before after c visible =>
      have ascii : c.isAscii = true := by simp [CodePoint.isAscii]; omega
      apply foldPlain_respelled
      apply foldPlain_singleton
      · rw [narrow_widened visible, narrow_of_isAscii ascii]
      · rw [narrow_widened visible, narrow_of_isAscii ascii]
  | @confused before after c confusable =>
      apply foldPlain_respelled
      rcases confusable with rfl | rfl | rfl <;> decide

theorem Variation.plain_iff {s t : Str} (variation : Variation s t) :
    s.all isPlain = true ↔ t.all isPlain = true := by
  have exchange (before after : Str) {c d : CodePoint} (same : isPlain c = isPlain d) :
      (before ++ [c] ++ after).all isPlain = true ↔ (before ++ [d] ++ after).all isPlain = true := by
    simp [same]
  cases variation with
  | @spaced before after c space =>
      have plain : isPlain c = true := by simp [isPlain, space]
      simp [plain]
  | @cased before after c letter =>
      have lower : c.isAscii = true := by simp [CodePoint.isAscii]; omega
      have upper : (upperAscii c).isAscii = true := by
        rw [upperAscii, if_pos letter]
        simp only [CodePoint.isAscii, decide_eq_true_eq]
        rw [Fin.sub_val_of_le]
        · omega
        · show (32 : Nat) ≤ c.val
          omega
      exact exchange before after (by simp [isPlain, lower, upper])
  | @widened before after c visible =>
      have ascii : c.isAscii = true := by simp [CodePoint.isAscii]; omega
      exact exchange before after (by rw [isPlain_widened visible, isPlain, ascii]; rfl)
  | @confused before after c confusable =>
      apply exchange
      rcases confusable with rfl | rfl | rfl <;> decide

theorem canonicalCode_respelled [CodeUnicode] {s t : Str} (respelled : Respelled s t)
    (plain : s.all isPlain = true) : canonicalCode s = canonicalCode t := by
  have both : (s.all isPlain = true ↔ t.all isPlain = true) ∧ foldPlain s = foldPlain t := by
    clear plain
    induction respelled with
    | rel s t variation => exact ⟨variation.plain_iff, variation.fold⟩
    | refl s => exact ⟨Iff.rfl, rfl⟩
    | symm s t _ ih => exact ⟨ih.1.symm, ih.2.symm⟩
    | trans s t u _ _ first second => exact ⟨first.1.trans second.1, first.2.trans second.2⟩
  rw [canonicalCode_plain plain, canonicalCode_plain (both.1.mp plain), both.2]

theorem isWellFormed_chars {code : Str} (wellFormed : isWellFormed code = true) :
    ∀ c ∈ code, c ∈ codePrefix ++ codeAlphabet := by
  rw [isWellFormed, Bool.and_eq_true, Bool.and_eq_true, List.isPrefixOf_iff_prefix] at wellFormed
  obtain ⟨⟨body, rfl⟩, -, alphabet⟩ := wellFormed
  rw [List.drop_left, List.all_eq_true] at alphabet
  intro c member
  rcases List.mem_append.mp member with early | late
  · exact List.mem_append_left _ early
  · exact List.mem_append_right _ (of_decide_eq_true (alphabet c late))

theorem canonicalCode_minted [CodeUnicode] {code : Str} (minted : isWellFormed code = true) :
    canonicalCode code = code := by
  have all : ((codePrefix ++ codeAlphabet).all fun c => isPlain c && narrow c == c && !c.isSpace &&
      crockfordFold (upperAscii c) == c) = true := by decide
  have fixed (c : CodePoint) (member : c ∈ code) :
      isPlain c = true ∧ narrow c = c ∧ c.isSpace = false ∧ crockfordFold (upperAscii c) = c := by
    have each := List.all_eq_true.mp all c (isWellFormed_chars minted c member)
    simpa [Bool.and_eq_true, and_assoc] using each
  have narrowed : code.map narrow = code :=
    List.map_congr_left (fun c member => (fixed c member).2.1) |>.trans (List.map_id code)
  have solid : code.filter (fun c => !c.isSpace) = code :=
    List.filter_eq_self.mpr fun c member => by simp [(fixed c member).2.2.1]
  have folded : code.map (fun c => crockfordFold (upperAscii c)) = code :=
    List.map_congr_left (fun c member => (fixed c member).2.2.2) |>.trans (List.map_id code)
  have plain : code.all isPlain = true :=
    List.all_eq_true.mpr fun c member => (fixed c member).1
  rw [canonicalCode_plain plain, foldPlain, narrowed, solid, folded]

end Canonical
end Proxyshop.Merchant
