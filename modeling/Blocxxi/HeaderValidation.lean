import Blocxxi.CompactTargets
import Blocxxi.HeaderSyncRuns

/-!
# What a validated header satisfies

A header with bits is accepted exactly if it continues the previous header, its
extracted hash meets its own target and its bits do not change where the adapter
expects them to stay.  The hash is extracted from text that need not consist of
digits, and the place where bits may change is found from the previous height.
-/

namespace Blocxxi

namespace Bitcoin

open Blocxxi.Core Cxx

/-- The links of a header: its previous hash and the header before it. -/
def Continues (header : Header) (previous : Option Header) : Prop :=
  (0 < header.height → header.previousHashHex ≠ []) ∧
    ∀ last ∈ previous, Follows last header

/-- The extracted hash does not exceed the target of the bits. -/
def MeetsTarget (header : Header) : Prop :=
  ∃ target hash, targetFromCompact header.bits signetPowLimitHex = some target ∧
    hashBytesFromHex header.hashHex = some hash ∧
    BigEndian.value hash ≤ BigEndian.value target

/-- The bits change only behind a header whose height is a multiple of 2016. -/
def KeepsDifficulty (header : Header) (previous : Option Header) : Prop :=
  ∀ last ∈ previous,
    last.bits = 0 ∨ last.height % 2016 = 0 ∨ header.bits = last.bits

/-- The comparison of a hash with a target is that of their numbers. -/
theorem exceeds_iff {header : Header} {target hash : ByteString}
    (isTarget : targetFromCompact header.bits signetPowLimitHex = some target)
    (isHash : hashBytesFromHex header.hashHex = some hash) :
    target < hash ↔ ¬ BigEndian.value hash ≤ BigEndian.value target := by
  rw [BigEndian.lt_iff, Nat.not_le]
  rw [(value_of_targetFromCompact isTarget).1, (hashBytesFromHex_length isHash).2]

theorem keepsDifficulty_iff (header : Header) (previous : Option Header) :
    KeepsDifficulty header previous ↔
      (previous.any fun last =>
        last.bits != 0 && last.height % 2016 != 0 && header.bits != last.bits) =
          false := by
  cases previous with
  | none => simp [KeepsDifficulty]
  | some last =>
      simp only [KeepsDifficulty, Option.mem_def, Option.some.injEq, forall_eq',
        Option.any_some, Bool.and_eq_false_iff, bne_eq_false_iff_eq]
      tauto

/-- What an accepted header with bits was checked for. -/
theorem validateHeader_checks {header : Header} {previous : Option Header}
    (hasBits : header.bits ≠ 0)
    (accepted : (validateHeader header previous).isOk = true) :
    Continues header previous ∧ MeetsTarget header ∧
      KeepsDifficulty header previous := by
  have follows := (validateHeader_accepted accepted).2
  unfold validateHeader at accepted
  split at accepted
  · cases accepted
  split at accepted
  · cases accepted
  rename_i linked
  split at accepted
  · cases accepted
  split at accepted
  · cases accepted
  -- the branch without bits is closed by `hasBits`
  split at accepted
  · cases accepted
  rename_i target isTarget
  split at accepted
  · cases accepted
  rename_i hash isHash
  split at accepted
  · cases accepted
  rename_i meets
  split at accepted
  · cases accepted
  rename_i keeps
  rw [exceeds_iff isTarget isHash, not_not] at meets
  refine ⟨⟨fun positive noHash => linked ⟨positive, noHash⟩, follows⟩,
    ⟨target, hash, isTarget, isHash, meets⟩, ?_⟩
  rw [keepsDifficulty_iff]
  simpa using keeps

/-- A header with bits is accepted exactly if all its checks pass. -/
theorem validateHeader_isOk_iff {header : Header} {previous : Option Header}
    (hasBits : header.bits ≠ 0) :
    (validateHeader header previous).isOk = true ↔
      Continues header previous ∧ MeetsTarget header ∧
        KeepsDifficulty header previous := by
  constructor
  · exact validateHeader_checks hasBits
  · rintro ⟨⟨linked, follows⟩, ⟨target, hash, isTarget, isHash, meets⟩, keeps⟩
    have hashed : header.hashHex ≠ [] := by
      intro empty
      have length := (hashBytesFromHex_length isHash).1
      rw [empty] at length
      cases length
    have heights : ¬ (previous.any fun last => header.height != last.height + 1) := by
      cases previous with
      | none => simp
      | some last => simpa using (follows last rfl).1
    have hashes :
        ¬ (previous.any fun last => header.previousHashHex != last.hashHex) := by
      cases previous with
      | none => simp
      | some last => simpa using (follows last rfl).2
    have linked' : ¬ (0 < header.height ∧ header.previousHashHex = []) :=
      fun unlinked => linked unlinked.1 unlinked.2
    have notExceeds : ¬ target < hash := by
      rw [exceeds_iff isTarget isHash, not_not]
      exact meets
    rw [keepsDifficulty_iff] at keeps
    rw [validateHeader, if_neg hashed, if_neg linked', if_neg heights, if_neg hashes,
      if_neg hasBits, isTarget]
    simp only [isHash, if_neg notExceeds, keeps]
    rfl

/-- Two adjacent headers with bits, the second of which carries the hash of the
first and meets its own target. -/
structure Adjacent (last header : Header) : Prop where
  follows : Follows last header
  hashed : last.hashHex ≠ []
  lastBits : last.bits ≠ 0
  bits : header.bits ≠ 0
  meets : MeetsTarget header

/-- Between adjacent headers a change of bits is rejected unless the previous
height is a multiple of 2016. -/
theorem rejected_iff_of_adjacent {last header : Header}
    (adjacent : Adjacent last header) :
    (validateHeader header (some last)).isOk = false ↔
      header.bits ≠ last.bits ∧ ¬ 2016 ∣ last.height.toNat := by
  have continues : Continues header (some last) := by
    refine ⟨fun _ => ?_, ?_⟩
    · rw [adjacent.follows.2]
      exact adjacent.hashed
    · rintro previous ⟨⟩
      exact adjacent.follows
  have multiple : last.height % 2016 = 0 ↔ 2016 ∣ last.height.toNat := by
    rw [← UInt32.toNat_inj, UInt32.toNat_mod, Nat.dvd_iff_mod_eq_zero]
    rfl
  rw [← Bool.not_eq_true, validateHeader_isOk_iff adjacent.bits]
  simp only [continues, adjacent.meets, true_and, KeepsDifficulty, Option.mem_def,
    Option.some.injEq, forall_eq', adjacent.lastBits, false_or, multiple]
  tauto

/-- At most one of two adjacent heights is a multiple of 2016. -/
theorem not_both_multiples {last header : Header} (follows : Follows last header)
    (lastMultiple : 2016 ∣ last.height.toNat) : ¬ 2016 ∣ header.height.toNat := by
  have bound := last.height.toNat_lt
  have height : header.height.toNat = (last.height.toNat + 1) % 2 ^ 32 := by
    rw [follows.1, UInt32.toNat_add]
    rfl
  omega

/-- The rule that bits change exactly at multiples of 2016 is kept as long as
neither height is one, or the bits stay. -/
theorem changeRejected_iff {last header : Header} (adjacent : Adjacent last header) :
    (header.bits ≠ last.bits →
      ((validateHeader header (some last)).isOk = false ↔
        ¬ 2016 ∣ header.height.toNat)) ↔
      header.bits = last.bits ∨
        (¬ 2016 ∣ last.height.toNat ∧ ¬ 2016 ∣ header.height.toNat) := by
  have notBoth := not_both_multiples adjacent.follows
  rw [rejected_iff_of_adjacent adjacent]
  tauto

/-- The last header of the first period. -/
def lastOfPeriod : Header where
  height := 2015
  hashHex := List.replicate 64 49
  previousHashHex := List.replicate 64 50
  bits := 0x1d00ffff

/-- The first header of the second period, with bits of its own. -/
def firstOfPeriod : Header where
  height := 2016
  hashHex := List.replicate 64 48
  previousHashHex := List.replicate 64 49
  bits := 0x1e0377ae

theorem adjacent_firstOfPeriod : Adjacent lastOfPeriod firstOfPeriod where
  follows := ⟨by decide, by decide +kernel⟩
  hashed := by decide
  lastBits := by decide
  bits := by decide
  meets := ⟨placedTarget 0x1e0377ae, List.replicate 32 0, by decide +kernel,
    by decide +kernel, by decide⟩

/-- Inside a period the rule is kept, whatever bits the next header has. -/
theorem changeRejected_iff_insidePeriod :
    (validateHeader { firstOfPeriod with height := 2015 }
      (some { lastOfPeriod with height := 2014 })).isOk = false := by
  have adjacent : Adjacent { lastOfPeriod with height := 2014 }
      { firstOfPeriod with height := 2015 } :=
    { adjacent_firstOfPeriod with follows := ⟨by decide, by decide +kernel⟩ }
  exact ((changeRejected_iff adjacent).mpr (Or.inr ⟨by decide, by decide +kernel⟩)
    (by decide)).mpr (by decide)

/-- The first header of a period is rejected for its new bits. -/
theorem changeRejected_firstOfPeriod :
    ¬ ∀ last header : Header, Adjacent last header → header.bits ≠ last.bits →
      ((validateHeader header (some last)).isOk = false ↔
        ¬ 2016 ∣ header.height.toNat) := by
  intro always
  have rejected := (rejected_iff_of_adjacent adjacent_firstOfPeriod).mpr
    ⟨by decide, by decide +kernel⟩
  exact (always _ _ adjacent_firstOfPeriod (by decide)).mp rejected (by decide)

/-- The hash text has 64 digits, and its number does not exceed the target of the
bits, which does not exceed the limit. -/
def ProofOfWork (header : Header) : Prop :=
  header.hashHex.length = 64 ∧
    (∀ character ∈ header.hashHex, Hex.HexDigit character) ∧
    ∃ target, targetFromCompact header.bits signetPowLimitHex = some target ∧
      hexNumber header.hashHex ≤ BigEndian.value target ∧
      BigEndian.value target ≤ hexNumber signetPowLimitHex

/-- A text of 64 characters that are not all digits, from all pairs of which
numbers are nevertheless extracted, small enough for the bits. -/
def SpuriousHash (header : Header) : Prop :=
  header.hashHex.length = 64 ∧
    (∃ character ∈ header.hashHex, ¬ Hex.HexDigit character) ∧
    ∃ bytes target, extractPairs header.hashHex = some bytes ∧
      targetFromCompact header.bits signetPowLimitHex = some target ∧
      BigEndian.value bytes ≤ BigEndian.value target

/-- Each pair of a spurious text has a digit in front, which no `0x` is, or a digit behind
a blank or a sign. -/
theorem SpuriousHash.pair {header : Header} (spurious : SpuriousHash header) {place : Nat}
    {first second : UInt8}
    (isPair : (header.hashHex.drop (2 * place)).take 2 = [first, second]) :
    isHexDigit first = true ∧ ¬ (first = 48 ∧ (second = 120 ∨ second = 88)) ∨
      (ByteText.isSpace first = true ∨ first = 43 ∨ first = 45) ∧ isHexDigit second = true := by
  obtain ⟨-, -, bytes, -, extracted, -⟩ := spurious
  have inside := congrArg List.length isPair
  rw [List.length_take, List.length_drop, List.length_cons, List.length_singleton] at inside
  have isNumber := (extractPairs_isSome_iff header.hashHex).mp
    (Option.isSome_iff_exists.mpr ⟨bytes, extracted⟩) place (by omega)
  rwa [isPair, extractHex_pair_isSome_iff] at isNumber

theorem signetPowLimit_isLimit : IsLimit signetPowLimitHex :=
  ⟨by decide, by decide +kernel⟩

theorem target_le_signetPowLimit {bits : UInt32} {target : ByteString}
    (returned : targetFromCompact bits signetPowLimitHex = some target) :
    BigEndian.value target ≤ hexNumber signetPowLimitHex := by
  obtain ⟨-, -, inside, ⟨powLimit, isBytes, bounded⟩, rfl⟩ :=
    targetFromCompact_eq_some_iff.mp returned
  obtain ⟨bytes, isBytes', -, number⟩ :=
    hashBytesFromHex_digits signetPowLimit_isLimit.1 signetPowLimit_isLimit.2
  rw [isBytes, Option.some.injEq] at isBytes'
  subst isBytes'
  rw [placedTarget_value inside, ← number]
  exact bounded

/-- A hash that meets its target proves work, unless its text is spurious. -/
theorem proofOfWork_of_meetsTarget {header : Header} (meets : MeetsTarget header) :
    ProofOfWork header ∨ SpuriousHash header := by
  obtain ⟨target, hash, isTarget, isHash, meets⟩ := meets
  have length := (hashBytesFromHex_length isHash).1
  by_cases digits : ∀ character ∈ header.hashHex, Hex.HexDigit character
  · left
    obtain ⟨bytes, isBytes, -, number⟩ := hashBytesFromHex_digits length digits
    rw [isHash, Option.some.injEq] at isBytes
    subst isBytes
    refine ⟨length, digits, target, isTarget, ?_, target_le_signetPowLimit isTarget⟩
    rw [← number]
    exact meets
  · right
    have extracted : extractPairs header.hashHex = some hash := by
      rwa [hashBytesFromHex, if_neg (not_not_intro length)] at isHash
    refine ⟨length, ?_, hash, target, extracted, isTarget, meets⟩
    push Not at digits
    exact digits

/-- Accepting a header proves its work exactly unless its hash text is spurious and
the header continues the previous one with bits that may stand there. -/
theorem acceptedProofOfWork_iff {header : Header} {previous : Option Header}
    (hasBits : header.bits ≠ 0) :
    ((validateHeader header previous).isOk = true → ProofOfWork header) ↔
      ¬ (SpuriousHash header ∧ Continues header previous ∧
        KeepsDifficulty header previous) := by
  rw [validateHeader_isOk_iff hasBits]
  constructor
  · rintro proves ⟨spurious, continues, keeps⟩
    obtain ⟨length, ⟨character, member, notDigit⟩, hash, target, extracted, isTarget,
      meets⟩ := spurious
    have isHash : hashBytesFromHex header.hashHex = some hash := by
      rwa [hashBytesFromHex, if_neg (not_not_intro length)]
    have proof := proves ⟨continues, ⟨target, hash, isTarget, isHash, meets⟩, keeps⟩
    exact notDigit (proof.2.1 character member)
  · rintro notSpurious ⟨continues, meets, keeps⟩
    rcases proofOfWork_of_meetsTarget meets with proof | spurious
    · exact proof
    · exact absurd ⟨spurious, continues, keeps⟩ notSpurious

/-- The first header of a period is accepted, and its hash is one of digits. -/
theorem acceptedProofOfWork_firstOfPeriod :
    (validateHeader firstOfPeriod none).isOk = true ∧ ProofOfWork firstOfPeriod := by
  have accepted : (validateHeader firstOfPeriod none).isOk = true := by
    decide +kernel
  refine ⟨accepted, (acceptedProofOfWork_iff (by decide)).mpr ?_ accepted⟩
  intro spurious
  obtain ⟨character, member, notDigit⟩ := spurious.1.2.1
  rw [List.eq_of_mem_replicate member] at notDigit
  exact notDigit (by decide)

/-- A genesis header whose hash text is made of blanks and zeros. -/
def blankHash : Header where
  hashHex := (List.replicate 32 [32, 48]).flatten
  bits := 0x1e0377ae

/-- The blank hash is accepted. -/
theorem acceptedProofOfWork_blankHash :
    ¬ ∀ (header : Header) (previous : Option Header), header.bits ≠ 0 →
      (validateHeader header previous).isOk = true → ProofOfWork header := by
  intro always
  have accepted : (validateHeader blankHash none).isOk = true := by decide +kernel
  have proof := always blankHash none (by decide) accepted
  have notDigit : ¬ Hex.HexDigit 32 := by decide
  exact notDigit (proof.2.1 32 (by decide))

end Bitcoin

end Blocxxi
