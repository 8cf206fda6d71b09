import FieldShadow.Proofs.Result
import FieldShadow.Proofs.Text.Piece
import FieldShadow.Text.Quoted
import FieldShadow.Text.Utf8

/-!
# Texts without zero characters

A text that is handed to other programs ends at its first zero character, so it must have none
(`ZeroFree`). Texts that are decoded from bytes in front of a zero have none
(`zeroFree_decodeUtf8`), pieces of them have none, and neither have numbers and quoted texts.
-/

namespace FieldShadow.Text

/-- Whether a text has no zero character. -/
def ZeroFree (s : String) : Prop :=
  '\x00' ∉ s.toList

/-- A text that is written out has the characters that it is written with. -/
theorem zeroFree_ofList {cs : List Char} (h : '\x00' ∉ cs) : ZeroFree (String.ofList cs) := by
  simpa [ZeroFree] using h

/-- Two texts behind each other have no zero if neither has. -/
theorem zeroFree_append {s t : String} : ZeroFree (s ++ t) ↔ ZeroFree s ∧ ZeroFree t := by
  simp [ZeroFree]

/-- A text with characters of another only. -/
theorem ZeroFree.of_subset {s t : String} (h : ZeroFree t) (hst : ∀ c ∈ s.toList, c ∈ t.toList) :
    ZeroFree s :=
  fun hzero => h (hst _ hzero)

theorem zeroFree_join {texts : List String} (h : ∀ s ∈ texts, ZeroFree s) :
    ZeroFree (String.join texts) := by
  rw [ZeroFree, String.toList_join]
  intro hzero
  obtain ⟨s, hs, hzero⟩ := List.mem_flatMap.mp hzero
  exact h s hs hzero

/-- A text of one character has none unless it is that character. -/
theorem zeroFree_singleton {c : Char} : ZeroFree (String.singleton c) ↔ c ≠ '\x00' := by
  simp [ZeroFree, eq_comm]

/-! ## Numbers and quoted texts -/

/-- Digits of a number are characters of their own, none of them a zero character. -/
theorem zero_not_mem_toDigits {base : Nat} (hbase : 1 < base) (n : Nat) :
    '\x00' ∉ Nat.toDigits base n := by
  induction n using Nat.strongRecOn with
  | _ n ih =>
    by_cases h : n < base
    · simp [Nat.toDigits_of_lt_base h]
    · have hlt : n / base < n := Nat.div_lt_self (by omega) hbase
      simp [Nat.toDigits_of_base_le hbase (Nat.le_of_not_lt h), ih _ hlt]

theorem zeroFree_toString (n : Nat) : ZeroFree (toString n) := by
  simpa [ZeroFree] using zero_not_mem_toDigits (by decide) n

/-- A character that is quoted is written out if it cannot be shown. -/
theorem zero_not_mem_escapeChar (c : Char) : '\x00' ∉ escapeChar c := by
  unfold escapeChar
  split
  · decide
  · next hzero =>
    -- the characters with escapes of their own
    iterate 5
      split
      · decide
    split
    · simpa [codePointEscape] using zero_not_mem_toDigits (by decide) _
    · simpa using Ne.symm hzero

theorem zeroFree_quote (s : String) : ZeroFree (quote s) := by
  simp [ZeroFree, quote, zero_not_mem_escapeChar]

/-! ## Decoded texts -/

/-- A valid code point is the number of its character. -/
theorem toNat_ofNat {code : Nat} (h : code.isValidChar) : (Char.ofNat code).toNat = code := by
  rw [Char.ofNat, dif_pos h]
  rfl

/-- A byte that is owed is read within its bounds, and those behind it go on from there. -/
theorem exists_of_readTails_succ {index low high bits seen owed code : Nat} {bytes : List UInt8}
    (h : readTails index low high bits seen (owed + 1) bytes = .ok code) :
    ∃ b rest, bytes = b :: rest ∧ low ≤ b.toNat ∧ b.toNat ≤ high ∧
      readTails index 0x80 0xBF (bits * 0x40 + b.toNat % 0x40) (seen + 1) owed rest =
        .ok code := by
  cases bytes with
  | nil => cases h
  | cons b rest =>
    rw [readTails] at h
    split at h
    · next hb => exact ⟨b, rest, rfl, hb.1, hb.2, h⟩
    · cases h

/-- Each following byte adds six bits. -/
theorem bounds_of_readTails {index low high bits seen owed code : Nat} {bytes : List UInt8}
    (h : readTails index low high bits seen owed bytes = .ok code) :
    bits <<< (6 * owed) ≤ code ∧ code < (bits + 1) <<< (6 * owed) := by
  induction owed generalizing low high bits seen bytes with
  | zero =>
    rw [readTails, Except.ok.injEq] at h
    rw [Nat.mul_zero, Nat.shiftLeft_zero, Nat.shiftLeft_zero]
    omega
  | succ owed ih =>
    obtain ⟨b, rest, -, -, -, hrest⟩ := exists_of_readTails_succ h
    obtain ⟨hle, hlt⟩ := ih hrest
    have hb : b.toNat % 0x40 < 0x40 := Nat.mod_lt _ (by decide)
    -- each byte that is owed shifts what is read so far by six bits
    have hsix (n : Nat) : n <<< (6 * (owed + 1)) = (n * 0x40) <<< (6 * owed) := by
      rw [Nat.mul_succ, Nat.add_comm, Nat.shiftLeft_add, Nat.shiftLeft_eq n 6]
    rw [hsix, hsix]
    simp only [Nat.shiftLeft_eq] at hle hlt ⊢
    exact ⟨Nat.le_trans (Nat.mul_le_mul_right _ (by omega)) hle,
      Nat.lt_of_lt_of_le hlt (Nat.mul_le_mul_right _ (by omega))⟩

/-- A character that is read from bytes is one, and it is zero only if its first byte is. -/
theorem code_of_readTails {index b code : Nat} {lead : Lead} {rest : List UInt8}
    (hlead : Lead.ofByte? b = some lead) (hb : b ≠ 0)
    (h : readTails index lead.low lead.high lead.bits 1 lead.tails rest = .ok code) :
    code.isValidChar ∧ code ≠ 0 := by
  unfold Nat.isValidChar
  unfold Lead.ofByte? at hlead
  split at hlead
  · rw [Option.some.injEq] at hlead
    subst hlead
    have hbounds := bounds_of_readTails h
    dsimp only at hbounds
    omega
  · -- the range of the second byte keeps out forms that are too long, halves of pairs, and codes
    -- that are too great
    repeat' split at hlead
    all_goals simp only [reduceCtorEq, Option.some.injEq] at hlead
    all_goals
      subst hlead
      obtain ⟨c, rest, -, hlow, hhigh, hrest⟩ := exists_of_readTails_succ h
      have hbounds := bounds_of_readTails hrest
      dsimp only at hlow hhigh hbounds
      omega

/-- Bytes without a zero byte decode to characters without a zero: a code point of several bytes is
never so small. -/
theorem zero_not_mem_decodeFrom {index : Nat} {bytes : List UInt8} {cs : List Char}
    (hbytes : 0 ∉ bytes) (h : decodeFrom index bytes = .ok cs) : '\x00' ∉ cs := by
  induction index, bytes using decodeFrom.induct generalizing cs with
  | case1 index =>
    rw [decodeFrom, Except.ok.injEq] at h
    subst h
    exact List.not_mem_nil
  | case2 index b rest hlead =>
    rw [decodeFrom, hlead] at h
    cases h
  | case3 index b rest lead hlead ih =>
    rw [decodeFrom, hlead] at h
    obtain ⟨code, hcode, h⟩ := bind_eq_ok.mp h
    obtain ⟨others, hothers, h⟩ := bind_eq_ok.mp h
    obtain rfl := Except.ok.inj h
    rw [List.mem_cons, not_or] at hbytes ⊢
    obtain ⟨hb, hrest⟩ := hbytes
    have hb : b.toNat ≠ 0 := fun h => hb (UInt8.toNat_inj.mp h).symm
    -- only the byte zero decodes to zero: longer forms of it are refused
    obtain ⟨hvalid, hcode⟩ := code_of_readTails hlead hb hcode
    refine ⟨fun hzero => hcode ?_, ih ?_ hothers⟩
    · rw [← toNat_ofNat hvalid, ← hzero]
      rfl
    · exact fun hmem => hrest (List.mem_of_mem_drop hmem)

/-- Bytes without a zero are decoded to a text without one. -/
theorem zeroFree_decodeUtf8 {bytes : List UInt8} {text : String} (hbytes : 0 ∉ bytes)
    (h : decodeUtf8 bytes = .ok text) : ZeroFree text := by
  obtain ⟨cs, hcs, rfl⟩ := map_eq_ok.mp h
  simpa [ZeroFree] using zero_not_mem_decodeFrom hbytes hcs

end FieldShadow.Text
