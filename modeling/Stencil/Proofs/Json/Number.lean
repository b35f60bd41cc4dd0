import Stencil.Json.Render
import Stencil.Json.Token
/-!
# Number — a written number, read back

Digits give their value (`decimalValue_toDigits`) and stand before a point as the format wants them
(`isIntegerPart_toDigits`), so every number reads as itself, whole or not (`number?_renderNumber`).
-/
namespace Stencil
namespace Json

/-! ## Digits -/

theorem decimalValue_eq (digits : List Char) : ∀ acc : Nat, decimalValue acc digits = Nat.ofDigitChars 10 digits acc := by
  induction digits with
  | nil => exact fun _ => rfl
  | cons c digits ih =>
    intro acc
    rw [Nat.ofDigitChars_cons, ← ih, Nat.mul_comm 10 acc]
    rfl

theorem decimalValue_toDigits (n : Nat) : decimalValue 0 (Nat.toDigits 10 n) = n := by
  rw [decimalValue_eq, Nat.ofDigitChars_ten_toDigits]

theorem isDigit_of_mem_toDigits {n : Nat} {c : Char} (h : c ∈ Nat.toDigits 10 n) : c.isDigit = true :=
  Nat.isDigit_of_mem_toDigits (by decide) (by decide) h

theorem digitChar_ne_zero : ∀ d < 10, 0 < d → Nat.digitChar d ≠ '0' := by decide

theorem toDigits_eq_cons {n : Nat} (hn : 0 < n) : ∃ c cs, Nat.toDigits 10 n = c :: cs ∧ c ≠ '0' := by
  induction n using Nat.strongRecOn with
  | ind n ih =>
    rw [Nat.toDigits_eq_if (by decide)]
    split
    · next hlt => exact ⟨_, [], rfl, digitChar_ne_zero n hlt hn⟩
    · obtain ⟨c, cs, hcs, hc⟩ := ih (n / 10) (by omega) (by omega)
      exact ⟨c, cs ++ _, by rw [hcs]; rfl, hc⟩

theorem isIntegerPart_toDigits (n : Nat) : isIntegerPart (Nat.toDigits 10 n) = true := by
  rcases Nat.eq_zero_or_pos n with rfl | hn
  · rfl
  · obtain ⟨c, cs, hcs, hc⟩ := toDigits_eq_cons hn
    rw [hcs]
    unfold isIntegerPart
    split
    · next h => cases h
    · rfl
    · next h =>
      cases h
      simpa using hc

theorem toDigits_ne_nil (n : Nat) : Nat.toDigits 10 n ≠ [] := by
  intro h
  have hpart := isIntegerPart_toDigits n
  rw [h] at hpart
  cases hpart

/-- A text that no run of digits goes on in. -/
def EndsDigits (text : List Char) : Prop := ∀ c ∈ text.head?, c.isDigit = false

theorem spanDigits_toDigits (n : Nat) (rest : List Char) (hrest : EndsDigits rest) :
    spanDigits (Nat.toDigits 10 n ++ rest) = (Nat.toDigits 10 n, rest) := by
  have hall : ∀ c ∈ Nat.toDigits 10 n, c.isDigit = true := fun c hc => isDigit_of_mem_toDigits hc
  have htake : rest.takeWhile Char.isDigit = [] ∧ rest.dropWhile Char.isDigit = rest := by
    cases rest with
    | nil => exact ⟨rfl, rfl⟩
    | cons d rest =>
      have hd : d.isDigit = false := hrest d rfl
      rw [List.takeWhile_cons, List.dropWhile_cons, hd]
      exact ⟨rfl, rfl⟩
  rw [spanDigits, List.takeWhile_append_of_pos hall, List.dropWhile_append_of_pos hall, htake.1, htake.2, List.append_nil]

theorem spanDigits_toDigits_end (n : Nat) : spanDigits (Nat.toDigits 10 n) = (Nat.toDigits 10 n, []) := by
  have hspan := spanDigits_toDigits n [] fun _ h => nomatch h
  rwa [List.append_nil] at hspan

/-! ## Exponents -/

theorem exponentDigits?_toDigits (n : Nat) : exponentDigits? (Nat.toDigits 10 n) = some n := by
  rw [exponentDigits?, spanDigits_toDigits_end]
  cases hd : Nat.toDigits 10 n with
  | nil => exact absurd hd (toDigits_ne_nil n)
  | cons c cs =>
    show some (decimalValue 0 (c :: cs)) = some n
    rw [← hd, decimalValue_toDigits]

theorem toList_toString_nat (n : Nat) : (toString n).toList = Nat.toDigits 10 n := by
  rw [Nat.toString_eq_ofList_toDigits, String.toList_ofList]

theorem toList_toString_negSucc (n : Nat) : (toString (Int.negSucc n)).toList = '-' :: Nat.toDigits 10 (n + 1) := by
  show ("-" ++ toString (n + 1)).toList = _
  rw [String.toList_append, toList_toString_nat]
  rfl

/-- A character that a written number may have. -/
def IsNumeric (c : Char) : Prop := c.isDigit = true ∨ c = '-' ∨ c = 'e'

theorem isNumeric_of_mem_toString {e : Int} {c : Char} (h : c ∈ (toString e).toList) : IsNumeric c := by
  cases e with
  | ofNat n =>
    rw [show (toString (Int.ofNat n)).toList = Nat.toDigits 10 n from toList_toString_nat n] at h
    exact .inl (isDigit_of_mem_toDigits h)
  | negSucc n =>
    rw [toList_toString_negSucc] at h
    rcases List.mem_cons.1 h with rfl | h
    · exact .inr (.inl rfl)
    · exact .inl (isDigit_of_mem_toDigits h)

theorem exponent?_toString (e : Int) : exponent? (toString e).toList = some e := by
  cases e with
  | ofNat n =>
    have htext : (toString (Int.ofNat n)).toList = Nat.toDigits 10 n := toList_toString_nat n
    rw [htext]
    unfold exponent?
    split
    · next h => exact absurd (isDigit_of_mem_toDigits (n := n) (by rw [h]; exact List.mem_cons_self)) (by decide)
    · next h => exact absurd (isDigit_of_mem_toDigits (n := n) (by rw [h]; exact List.mem_cons_self)) (by decide)
    · rw [exponentDigits?_toDigits]
      rfl
  | negSucc n =>
    rw [toList_toString_negSucc]
    show (exponentDigits? _).map _ = _
    rw [exponentDigits?_toDigits]
    rfl

/-! ## Numbers -/

theorem guard_of {p : Prop} [Decidable p] (h : p) : (guard p : Option Unit) = some () := if_pos h

theorem unsigned?_toDigits {negative : Bool} {n : Nat} (h : negative = true → n ≠ 0) :
    unsigned? negative (Nat.toDigits 10 n) = some (.whole (if negative then -Int.ofNat n else Int.ofNat n)) := by
  have hzero : (!(negative && n == 0)) = true := by cases negative <;> simp_all
  rw [unsigned?, spanDigits_toDigits_end]
  show (guard (isIntegerPart (Nat.toDigits 10 n)) : Option Unit).bind _ = _
  rw [guard_of (isIntegerPart_toDigits n), Option.bind_some]
  show (if !(negative && decimalValue 0 (Nat.toDigits 10 n) == 0) then
    some (Number.whole (if negative then -Int.ofNat (decimalValue 0 (Nat.toDigits 10 n))
      else Int.ofNat (decimalValue 0 (Nat.toDigits 10 n)))) else _) = _
  rw [decimalValue_toDigits, if_pos hzero]

theorem unsigned?_exponent (negative : Bool) (n : Nat) (e : Int) :
    unsigned? negative (Nat.toDigits 10 n ++ 'e' :: (toString e).toList) = some (.decimal negative n e) := by
  have hspan := spanDigits_toDigits n ('e' :: (toString e).toList) fun c h => by cases h; rfl
  rw [unsigned?, hspan]
  show (guard (isIntegerPart (Nat.toDigits 10 n)) : Option Unit).bind _ = _
  rw [guard_of (isIntegerPart_toDigits n), Option.bind_some]
  show (exponent? (toString e).toList).bind (fun exponent =>
    some (Number.decimal negative (decimalValue 0 (Nat.toDigits 10 n ++ [])) (exponent - Int.ofNat 0))) = _
  rw [exponent?_toString, Option.bind_some, List.append_nil, decimalValue_toDigits]
  exact congrArg (fun e => some (Number.decimal negative n e)) (Int.sub_zero e)

theorem number?_toDigits (n : Nat) (rest : List Char) :
    number? (Nat.toDigits 10 n ++ rest) = unsigned? false (Nat.toDigits 10 n ++ rest) := by
  unfold number?
  split
  · next s h =>
    cases hd : Nat.toDigits 10 n with
    | nil => exact absurd hd (toDigits_ne_nil n)
    | cons c cs =>
      rw [hd] at h
      cases h
      exact absurd (isDigit_of_mem_toDigits (n := n) (by rw [hd]; exact List.mem_cons_self)) (by decide)
  · rfl

theorem toList_renderNumber_decimal (negative : Bool) (digits : Nat) (exponent : Int) :
    (renderNumber (.decimal negative digits exponent)).toList =
      (if negative then "-" else "").toList ++ (Nat.toDigits 10 digits ++ 'e' :: (toString exponent).toList) := by
  rw [renderNumber, String.toList_append, String.toList_append, String.toList_append, toList_toString_nat,
    List.append_assoc, List.append_assoc]
  rfl

theorem isNumeric_of_mem_renderNumber {n : Number} {c : Char} (h : c ∈ (renderNumber n).toList) : IsNumeric c := by
  cases n with
  | whole value => exact isNumeric_of_mem_toString h
  | decimal negative digits exponent =>
    rw [toList_renderNumber_decimal] at h
    rcases List.mem_append.1 h with h | h
    · cases negative with
      | false => cases h
      | true => exact .inr (.inl (List.mem_singleton.1 h))
    · rcases List.mem_append.1 h with h | h
      · exact .inl (isDigit_of_mem_toDigits h)
      · rcases List.mem_cons.1 h with rfl | h
        · exact .inr (.inr rfl)
        · exact isNumeric_of_mem_toString h

/-- **A written number reads as itself.** -/
theorem number?_renderNumber (n : Number) : number? (renderNumber n).toList = some n := by
  cases n with
  | whole value =>
    cases value with
    | ofNat n =>
      have htext : (renderNumber (.whole (.ofNat n))).toList = Nat.toDigits 10 n := toList_toString_nat n
      have hdigits := number?_toDigits n []
      rw [List.append_nil] at hdigits
      rw [htext, hdigits, unsigned?_toDigits fun h => Bool.noConfusion h]
      rfl
    | negSucc n =>
      have htext : (renderNumber (.whole (.negSucc n))).toList = '-' :: Nat.toDigits 10 (n + 1) := toList_toString_negSucc n
      rw [htext]
      show unsigned? true _ = _
      rw [unsigned?_toDigits fun _ => Nat.succ_ne_zero n]
      rfl
  | decimal negative digits exponent =>
    rw [toList_renderNumber_decimal]
    cases negative with
    | false => exact (number?_toDigits digits _).trans (unsigned?_exponent false digits exponent)
    | true => exact unsigned?_exponent true digits exponent

theorem word?_renderNumber (n : Number) : word? (renderNumber n).toList = some (.number n) := by
  have hnumber := number?_renderNumber n
  have hne : ∀ s, number? s = none → (renderNumber n).toList ≠ s := by
    rintro s hs rfl
    rw [hs] at hnumber
    cases hnumber
  rw [word?, if_neg (hne _ rfl), if_neg (hne _ rfl), if_neg (hne _ rfl), hnumber, Option.map_some]

end Json
end Stencil
