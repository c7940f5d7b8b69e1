import Mathlib.Data.List.Infix
import Mathlib.Data.List.Forall2

/-!
# Texts in UTF-8

The encoding of a text is injective, and a prefix of it either encodes a prefix of the text or ends
inside one character (`prefix_utf8`).

The two are what is needed of UTF-8 by a program that writes texts as bytes and may be stopped
anywhere: what it has written is the encoding of a shorter text, or cannot be decoded at its end.
A byte below `0x80` only ever stands for its own character (`mem_of_mem_utf8`), so that a program
which looks for such a byte, a line feed for instance, finds the characters and nothing else.
-/

namespace Framework

/-- The UTF-8 encoding of a text. -/
def utf8 (text : List Char) : List UInt8 := text.flatMap String.utf8EncodeChar

@[simp] theorem utf8_nil : utf8 [] = [] := rfl

@[simp] theorem utf8_cons (c : Char) (text : List Char) :
    utf8 (c :: text) = String.utf8EncodeChar c ++ utf8 text := rfl

theorem utf8_injective : Function.Injective utf8 := by
  intro text text' h
  have hbytes : (String.ofList text).toByteArray = (String.ofList text').toByteArray := by
    simp only [String.toByteArray_ofList, List.utf8Encode]
    exact congrArg List.toByteArray h
  simpa using congrArg String.toList (String.toByteArray_inj.1 hbytes)

/-- A byte below `0x80` encodes a character of its own. -/
theorem eq_of_mem_utf8EncodeChar {byte : UInt8} {c : Char} (hascii : byte.toNat < 0x80)
    (h : byte ∈ String.utf8EncodeChar c) : c.val.toNat = byte.toNat := by
  unfold String.utf8EncodeChar at h
  dsimp only at h
  split_ifs at h with h1 h2 h3
  · obtain rfl := List.mem_singleton.1 h
    simp only [UInt8.toNat_ofNat']
    omega
  all_goals
    exfalso
    simp only [List.mem_cons, List.not_mem_nil, or_false] at h
    rcases h with rfl | rfl | rfl | rfl <;> simp only [UInt8.toNat_ofNat'] at hascii <;> omega

/-- A byte below `0x80` stands in a text's encoding only for its character. -/
theorem mem_of_mem_utf8 {byte : UInt8} {text : List Char} (hascii : byte.toNat < 0x80)
    (h : byte ∈ utf8 text) : ∃ c ∈ text, c.val.toNat = byte.toNat := by
  obtain ⟨c, hc, hbyte⟩ := List.mem_flatMap.1 h
  exact ⟨c, hc, eq_of_mem_utf8EncodeChar hascii hbyte⟩

/-- **Cuts.** A cut through the encoding of a text is between two characters, and then encodes the
text up to there, or inside one. -/
theorem prefix_utf8 {text : List Char} {p : List UInt8} (h : p <+: utf8 text) :
    (∃ q, q <+: text ∧ p = utf8 q) ∨
      ∃ q c b, q ++ [c] <+: text ∧ b <+: String.utf8EncodeChar c ∧ b ≠ [] ∧
        b ≠ String.utf8EncodeChar c ∧ p = utf8 q ++ b := by
  induction text generalizing p with
  | nil => exact .inl ⟨[], List.nil_prefix, by simpa using h⟩
  | cons c text ih =>
      obtain ⟨r, hr⟩ := h
      rw [utf8_cons] at hr
      rcases List.append_eq_append_iff.1 hr with ⟨b, hb, -⟩ | ⟨p', rfl, hp'⟩
      · -- the cut is at the first character or inside it
        by_cases hnil : p = []
        · exact .inl ⟨[], List.nil_prefix, hnil⟩
        · by_cases hwhole : p = String.utf8EncodeChar c
          · exact .inl ⟨[c], by simp, by simp [hwhole]⟩
          · exact .inr ⟨[], c, p, by simp, ⟨b, hb.symm⟩, hnil, hwhole, rfl⟩
      · rcases ih ⟨r, hp'.symm⟩ with ⟨q, hq, rfl⟩ | ⟨q, d, b, hq, hb, hnil, hwhole, rfl⟩
        · exact .inl ⟨c :: q, by simpa using hq, rfl⟩
        · exact .inr ⟨c :: q, d, b, by simpa using hq, hb, hnil, hwhole, by simp⟩

end Framework
