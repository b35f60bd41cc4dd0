import Mathlib.Algebra.Group.Nat.Defs
import Mathlib.Data.List.Forall2
import Stencil.Digest.Sha256
/-!
# Sha256 — the digest is the one of the standard

`IsDigest` tells the digest of a message as the standard has it, with its constants given by what they are: the first bits
behind the point of the roots of the first primes.  The words of a schedule are told by their number, and the working
variables by the number of rounds.  The digest that is computed, with a window that moves over the schedule and blocks that
are taken off a row of words, is that one (`isDigest_digest`), and a message has no other (`isDigest_iff`).
-/
namespace Stencil
namespace Sha256

/-! ## The standard -/

def primes : List Nat :=
  [2, 3, 5, 7, 11, 13, 17, 19, 23, 29, 31, 37, 41, 43, 47, 53, 59, 61, 67, 71, 73, 79, 83, 89, 97, 101, 103, 107, 109, 113,
    127, 131, 137, 139, 149, 151, 157, 163, 167, 173, 179, 181, 191, 193, 197, 199, 211, 223, 227, 229, 233, 239, 241, 251,
    257, 263, 269, 271, 277, 281, 283, 293, 307, 311]

/-- A word that holds the first bits behind the point of the `k`-th root of `n`. -/
def RootBits (k n : Nat) (word : UInt32) : Prop :=
  ∃ whole < n, (whole * 2 ^ 32 + word.toNat) ^ k ≤ n * 2 ^ (32 * k) ∧
    n * 2 ^ (32 * k) < (whole * 2 ^ 32 + word.toNat + 1) ^ k

instance (k n : Nat) (word : UInt32) : Decidable (RootBits k n word) :=
  inferInstanceAs (Decidable (∃ whole < n, _ ∧ _))

/-- The number that a row of bytes stands for, most significant byte first. -/
def number (bytes : List UInt8) : Nat := bytes.foldl (fun n b => 256 * n + b.toNat) 0

/-- A message filled up to whole blocks: behind it a one bit, the fewest zeros, and its length in bits. -/
def Padded (message padded : List UInt8) : Prop :=
  ∃ zeros length, padded = message ++ 0x80 :: (List.replicate zeros 0 ++ length) ∧ zeros < 64 ∧ padded.length % 64 = 0 ∧
    length.length = 8 ∧ number length = 8 * message.length % 2 ^ 64

/-- The word number `t` of the block number `i`. -/
def blockWord (padded : List UInt8) (i t : Nat) : UInt32 :=
  UInt32.ofNat (number ((padded.drop (64 * i + 4 * t)).take 4))

def rotr (n : Nat) (x : UInt32) : UInt32 := ⟨x.toBitVec.rotateRight n⟩

/-- The words of the schedule of a block by their number. -/
def scheduled (block : Nat → UInt32) (t : Nat) : UInt32 :=
  if t < 16 then block t
  else
    let s0 x := rotr 7 x ^^^ rotr 18 x ^^^ (x >>> 3)
    let s1 x := rotr 17 x ^^^ rotr 19 x ^^^ (x >>> 10)
    s1 (scheduled block (t - 2)) + scheduled block (t - 7) + s0 (scheduled block (t - 15)) + scheduled block (t - 16)

/-- The working variables after a number of rounds. -/
def working (constants words : Nat → UInt32) (s : State) : Nat → State
  | 0 => s
  | t + 1 =>
    let v := working constants words s t
    let s1 := rotr 6 v.e ^^^ rotr 11 v.e ^^^ rotr 25 v.e
    let s0 := rotr 2 v.a ^^^ rotr 13 v.a ^^^ rotr 22 v.a
    let t1 := v.h + s1 + ((v.e &&& v.f) ^^^ (~~~v.e &&& v.g)) + constants t + words t
    let t2 := s0 + ((v.a &&& v.b) ^^^ (v.a &&& v.c) ^^^ (v.b &&& v.c))
    ⟨t1 + t2, v.a, v.b, v.c, v.d + t1, v.e, v.f, v.g⟩

/-- The hash value after a number of blocks. -/
def hashValue (constants : Nat → UInt32) (initial : State) (padded : List UInt8) : Nat → State
  | 0 => initial
  | i + 1 =>
    let s := hashValue constants initial padded i
    let v := working constants (scheduled (blockWord padded i)) s 64
    ⟨s.a + v.a, s.b + v.b, s.c + v.c, s.d + v.d, s.e + v.e, s.f + v.f, s.g + v.g, s.h + v.h⟩

/-- **The digest of a message**: its hash value after all blocks, with four bytes for each word. -/
def IsDigest (message digest : List UInt8) : Prop :=
  ∃ constants initial padded parts, List.Forall₂ (RootBits 3) primes constants ∧
    List.Forall₂ (RootBits 2) (primes.take 8) initial.words ∧ Padded message padded ∧
    List.Forall₂ (fun word part => part.length = 4 ∧ number part = word.toNat)
      (hashValue (constants.getD · 0) initial padded (padded.length / 64)).words parts ∧
    digest = parts.flatten

/-! ## Bytes -/

theorem roundConstants_rootBits : List.Forall₂ (RootBits 3) primes roundConstants := by decide +kernel

theorem initial_rootBits : List.Forall₂ (RootBits 2) (primes.take 8) State.initial.words := by decide +kernel

theorem foldl_number (bytes : List UInt8) (n : Nat) :
    bytes.foldl (fun n b => 256 * n + b.toNat) n = n * 256 ^ bytes.length + number bytes := by
  induction bytes generalizing n with
  | nil => simp [number]
  | cons b bytes ih =>
    rw [number, List.foldl_cons, List.foldl_cons, ih, ih (256 * 0 + b.toNat), List.length_cons, Nat.pow_succ]
    grind

theorem number_cons (b : UInt8) (bytes : List UInt8) :
    number (b :: bytes) = b.toNat * 256 ^ bytes.length + number bytes := by
  rw [number, List.foldl_cons, foldl_number, Nat.mul_zero, Nat.zero_add]

theorem length_bigEndian (n value : Nat) : (bigEndian n value).length = n := by
  induction n with
  | zero => rfl
  | succ n ih => rw [bigEndian, List.length_cons, ih]

theorem number_bigEndian (n value : Nat) : number (bigEndian n value) = value % 256 ^ n := by
  induction n with
  | zero => exact (Nat.mod_one value).symm
  | succ n ih =>
    have hbyte : (UInt8.ofNat (value / Nat.pow 256 n)).toNat = value / 256 ^ n % 256 := UInt8.toNat_ofNat'
    rw [bigEndian, number_cons, ih, length_bigEndian, hbyte, Nat.mod_pow_succ, Nat.mul_comm, Nat.add_comm]

theorem number_lt (bytes : List UInt8) : number bytes < 256 ^ bytes.length := by
  induction bytes with
  | nil => exact Nat.zero_lt_one
  | cons b bytes ih =>
    have hb := Nat.mul_le_mul_right (256 ^ bytes.length) (Nat.le_of_lt_succ b.toNat_lt)
    rw [number_cons, List.length_cons, Nat.pow_succ]
    omega

/-- The first byte and the number of the others are the quotient and the remainder. -/
theorem number_cons_div_mod (b : UInt8) (bytes : List UInt8) : number (b :: bytes) / 256 ^ bytes.length = b.toNat ∧
    number (b :: bytes) % 256 ^ bytes.length = number bytes := by
  refine (Nat.div_mod_unique (Nat.pow_pos (by decide))).2 ⟨?_, number_lt bytes⟩
  rw [number_cons, Nat.add_comm, Nat.mul_comm]

/-- Bytes are told by their number and how many they are. -/
theorem number_injective : ∀ {bytes bytes' : List UInt8}, bytes.length = bytes'.length → number bytes = number bytes' →
    bytes = bytes'
  | [], [], _, _ => rfl
  | b :: bytes, b' :: bytes', hlength, h => by
    have hlength : bytes.length = bytes'.length := Nat.succ.inj hlength
    obtain ⟨hfirst, hrest⟩ := number_cons_div_mod b bytes
    obtain ⟨hfirst', hrest'⟩ := number_cons_div_mod b' bytes'
    rw [h, hlength] at hfirst hrest
    rw [UInt8.toNat_inj.1 (hfirst.symm.trans hfirst'), number_injective hlength (hrest.symm.trans hrest')]

theorem padded_pad (message : List UInt8) : Padded message (pad message) := by
  refine ⟨_, _, rfl, Nat.mod_lt _ (by decide), ?_, length_bigEndian _ _, number_bigEndian _ _⟩
  simp only [pad, List.length_append, List.length_cons, List.length_replicate, length_bigEndian]
  omega

/-! ## Words -/

theorem word_eq (w x y z : UInt8) :
    (w.toUInt32 <<< 24) ||| (x.toUInt32 <<< 16) ||| (y.toUInt32 <<< 8) ||| z.toUInt32 =
      UInt32.ofNat (number [w, x, y, z]) := by
  have hw := w.toNat_lt
  have hx := x.toNat_lt
  have hy := y.toNat_lt
  have hz := z.toNat_lt
  have hnumber : number [w, x, y, z] = w.toNat * 2 ^ 24 + (x.toNat * 2 ^ 16 + (y.toNat * 2 ^ 8 + z.toNat)) := by
    simp only [number, List.foldl_cons, List.foldl_nil]
    omega
  -- The bits of the four bytes do not meet, so putting them together adds them up.
  have hshift : ∀ (b : UInt8) (k : Nat), k = 8 ∨ k = 16 ∨ k = 24 →
      (b.toUInt32 <<< UInt32.ofNat k).toNat = b.toNat <<< k := by
    intro b k hk
    have hb := b.toNat_lt
    rcases hk with rfl | rfl | rfl <;>
    · rw [UInt32.toNat_shiftLeft, UInt8.toNat_toUInt32]
      simp only [Nat.shiftLeft_eq]
      exact Nat.mod_eq_of_lt (by simp; omega)
  have hword : number [w, x, y, z] % 2 ^ 32 = w.toNat <<< 24 ||| (x.toNat <<< 16 ||| (y.toNat <<< 8 ||| z.toNat)) := by
    rw [← Nat.shiftLeft_add_eq_or_of_lt hz y.toNat, Nat.shiftLeft_eq y.toNat,
      ← Nat.shiftLeft_add_eq_or_of_lt (by omega) x.toNat, Nat.shiftLeft_eq x.toNat,
      ← Nat.shiftLeft_add_eq_or_of_lt (by omega) w.toNat, Nat.shiftLeft_eq w.toNat, hnumber]
    omega
  rw [← UInt32.toNat_inj, UInt32.toNat_ofNat', hword, UInt32.toNat_or, UInt32.toNat_or, UInt32.toNat_or, Nat.or_assoc,
    Nat.or_assoc, UInt8.toNat_toUInt32]
  exact congr (congrArg _ (hshift w 24 (by simp))) (congr (congrArg _ (hshift x 16 (by simp)))
    (congrArg (· ||| z.toNat) (hshift y 8 (by simp))))

/-- Rows of four bytes give a word each. -/
theorem words_eq_map : ∀ (k : Nat) (bytes : List UInt8), bytes.length = 4 * k →
    words bytes = (List.range k).map fun t => UInt32.ofNat (number ((bytes.drop (4 * t)).take 4))
  | 0, bytes, h => by
    obtain rfl := List.length_eq_zero_iff.1 h
    rfl
  | k + 1, w :: x :: y :: z :: rest, h => by
    have hrest : rest.length = 4 * k := by
      simp only [List.length_cons] at h
      omega
    rw [words, words_eq_map k rest hrest, word_eq, List.range_succ_eq_map, List.map_cons, List.map_map]
    rfl
  | k + 1, [], h | k + 1, [_], h | k + 1, [_, _], h | k + 1, [_, _, _], h => by
    simp only [List.length_cons, List.length_nil] at h
    omega

/-! ## Rounds -/

variable {block : Nat → UInt32}

/-- The words of the schedule from number `t` on. -/
def window (block : Nat → UInt32) (t : Nat) : List UInt32 := (List.range 16).map fun j => scheduled block (t + j)

theorem nextWord_window (t : Nat) : nextWord (window block t) = scheduled block (t + 16) := by
  have hlate : ¬ t + 16 < 16 := by omega
  rw [scheduled, if_neg hlate]
  -- The window holds the words `t` to `t + 15`, and the standard adds the same four in another order.
  have hsum : ∀ u v w x : UInt32, u + v + w + x = x + w + v + u := by
    intro u v w x
    grind
  exact hsum (scheduled block t) _ (scheduled block (t + 9)) _

theorem schedule_window (n t : Nat) :
    schedule n (window block t) = (List.range n).map fun j => scheduled block (t + j) := by
  induction n generalizing t with
  | zero => rfl
  | succ n ih =>
    have hnext : (window block t).tail ++ [nextWord (window block t)] = window block (t + 1) := by
      rw [nextWord_window]
      rfl
    rw [schedule, hnext, ih, List.range_succ_eq_map, List.map_cons, List.map_map]
    congr 1
    refine List.map_congr_left fun j _ => ?_
    show scheduled block (t + 1 + j) = scheduled block (t + (j + 1))
    rw [Nat.add_right_comm, Nat.add_assoc]

theorem window_zero (block : Nat → UInt32) : window block 0 = (List.range 16).map block := by
  refine List.map_congr_left fun j hj => ?_
  rw [scheduled, Nat.zero_add, if_pos (List.mem_range.1 hj)]

/-- The constants of the rounds by their number. -/
def roundConstant (t : Nat) : UInt32 := roundConstants.getD t 0

theorem foldl_round (s : State) (block : Nat → UInt32) (n : Nat) :
    ((List.range n).map fun t => (roundConstant t, scheduled block t)).foldl (fun s r => round s r.1 r.2) s =
      working roundConstant (scheduled block) s n := by
  induction n with
  | zero => rfl
  | succ n ih =>
    rw [List.range_succ, List.map_append, List.foldl_append, ih]
    rfl

theorem compress_eq (s : State) (block : Nat → UInt32) : compress s ((List.range 16).map block) =
    s.add (working roundConstant (scheduled block) s 64) := by
  have hconstants : roundConstants = (List.range 64).map roundConstant := rfl
  have hschedule : schedule 64 ((List.range 16).map block) = (List.range 64).map fun t => scheduled block (0 + t) := by
    rw [← window_zero, schedule_window]
  simp only [Nat.zero_add] at hschedule
  rw [compress, hschedule, hconstants, List.zip_map', foldl_round]

/-! ## Blocks -/

section Blocks

variable {padded : List UInt8} {blocks : Nat}

theorem length_words (h : padded.length = 64 * blocks) : (words padded).length = 16 * blocks := by
  rw [words_eq_map (16 * blocks) _ (by omega), List.length_map, List.length_range]

theorem words_drop_take (h : padded.length = 64 * blocks) {i : Nat} (hi : i < blocks) :
    ((words padded).drop (16 * i)).take 16 = (List.range 16).map (blockWord padded i) := by
  have hlength : padded.length = 4 * (16 * blocks) := by omega
  have hrange : ((List.range (16 * blocks)).drop (16 * i)).take 16 = (List.range 16).map (16 * i + ·) := by
    refine List.ext_getElem ?_ fun t _ _ => by simp
    simp only [List.length_take, List.length_drop, List.length_range, List.length_map]
    omega
  rw [words_eq_map _ _ hlength, ← List.map_drop, ← List.map_take, hrange, List.map_map]
  refine List.map_congr_left fun t _ => ?_
  show UInt32.ofNat (number ((padded.drop (4 * (16 * i + t))).take 4)) = _
  rw [blockWord, Nat.mul_add, ← Nat.mul_assoc]

/-- **Absorbing what is left after `i` blocks leads on to the hash value.** -/
theorem absorb_eq (h : padded.length = 64 * blocks) : ∀ (k n i : Nat), i + k = blocks → k ≤ n →
    absorb n (hashValue roundConstant .initial padded i) ((words padded).drop (16 * i)) =
      hashValue roundConstant .initial padded blocks
  | 0, n, i, hi, _ => by
    have hempty : (words padded).drop (16 * i) = [] := by
      rw [List.drop_eq_nil_iff, length_words h]
      omega
    rw [hempty, ← hi]
    cases n <;> rfl
  | k + 1, n + 1, i, hi, hn => by
    have hleft : ((words padded).drop (16 * i)).isEmpty = false := by
      rw [← Bool.not_eq_true, List.isEmpty_iff, List.drop_eq_nil_iff, length_words h]
      omega
    have hnext : compress (hashValue roundConstant .initial padded i) ((List.range 16).map (blockWord padded i)) =
        hashValue roundConstant .initial padded (i + 1) := by
      rw [compress_eq]
      rfl
    rw [absorb, hleft, if_neg Bool.false_ne_true, words_drop_take h (by omega), hnext, List.drop_drop, ← Nat.mul_succ]
    exact absorb_eq h k n (i + 1) (by omega) (by omega)

end Blocks

/-- **The digest that is computed is the one of the standard.** -/
theorem isDigest_digest (message : List UInt8) : IsDigest message (digest message) := by
  have hpadded := padded_pad message
  obtain ⟨-, -, -, -, hlength, -, -⟩ := hpadded
  have hblocks : (pad message).length = 64 * ((pad message).length / 64) := by omega
  have hwords := length_words hblocks
  have hvalue := absorb_eq hblocks ((pad message).length / 64) (words (pad message)).length 0 (by omega) (by omega)
  refine ⟨roundConstants, .initial, pad message, _, roundConstants_rootBits, initial_rootBits, padded_pad message,
    List.forall₂_map_right_iff.2 (List.forall₂_same.2 fun w _ => ⟨length_bigEndian 4 w.toNat, ?_⟩), ?_⟩
  · rw [number_bigEndian]
    exact Nat.mod_eq_of_lt w.toNat_lt
  · exact congrArg (fun s : State => s.words.flatMap fun w => bigEndian 4 w.toNat) hvalue

/-! ## Uniqueness -/

theorem RootBits.unique {k n : Nat} {word word' : UInt32} (h : RootBits k n word) (h' : RootBits k n word') :
    word = word' := by
  -- Both are the last bits of the whole root of `n` with 32 more bits, of which there is one.
  have hle : ∀ {r r' : Nat}, r ^ k ≤ n * 2 ^ (32 * k) → n * 2 ^ (32 * k) < (r' + 1) ^ k → r ≤ r' := by
    intro r r' hr hr'
    by_contra hlt
    exact absurd (Nat.pow_le_pow_left (Nat.lt_of_not_le hlt) k) (Nat.not_le_of_lt (Nat.lt_of_le_of_lt hr hr'))
  obtain ⟨whole, -, hlow, hhigh⟩ := h
  obtain ⟨whole', -, hlow', hhigh'⟩ := h'
  have hroot := Nat.le_antisymm (hle hlow hhigh') (hle hlow' hhigh)
  have hword := word.toNat_lt
  have hword' := word'.toNat_lt
  exact UInt32.toNat_inj.1 (by omega)

theorem Padded.unique {message padded padded' : List UInt8} (h : Padded message padded) (h' : Padded message padded') :
    padded = padded' := by
  obtain ⟨zeros, length, rfl, hzeros, hwhole, hlength, hnumber⟩ := h
  obtain ⟨zeros', length', rfl, hzeros', hwhole', hlength', hnumber'⟩ := h'
  simp only [List.length_append, List.length_cons, List.length_replicate, hlength, hlength'] at hwhole hwhole'
  have hz : zeros = zeros' := by omega
  rw [hz, number_injective (hlength.trans hlength'.symm) (hnumber.trans hnumber'.symm)]

/-- **A message has one digest**, the one that is computed. -/
theorem isDigest_iff {message bytes : List UInt8} : IsDigest message bytes ↔ bytes = digest message := by
  have hroots : ∀ k, Relator.RightUnique (RootBits k) := fun k n word word' => RootBits.unique
  have hunique : ∀ {other}, IsDigest message other → IsDigest message bytes → bytes = other := by
    rintro other ⟨constants, initial, padded, parts, hconstants, hinitial, hpadded, hparts, rfl⟩
      ⟨constants', initial', padded', parts', hconstants', hinitial', hpadded', hparts', rfl⟩
    obtain rfl := List.right_unique_forall₂' (hroots 3) hconstants hconstants'
    obtain rfl : initial = initial' := by
      have hwords := List.right_unique_forall₂' (hroots 2) hinitial hinitial'
      cases initial
      cases initial'
      simpa [State.words] using hwords
    obtain rfl := hpadded.unique hpadded'
    rw [List.right_unique_forall₂' (fun _ _ _ h h' => number_injective (h.1.trans h'.1.symm) (h.2.trans h'.2.symm))
      hparts hparts']
  constructor
  · exact hunique (isDigest_digest message)
  · rintro rfl
    exact isDigest_digest message

end Sha256

/-- The digest of the standard for three letters. -/
example : sourceDigest "abc" = "ba7816bf8f01cfea414140de5dae2223b00361a396177a9cb410ff61f20015ad" := by decide +kernel

end Stencil
