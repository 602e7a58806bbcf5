set_option autoImplicit false

/-!
# The order of texts

Texts are ordered character by character by code point, a proper initial part
before its extensions.  That is also the order of their UTF-8 bytes.
-/

namespace AssetAccess.Text

/-- The order of natural numbers, as a three-way answer. -/
def orderNat (a b : Nat) : Ordering :=
  if a < b then .lt else if b < a then .gt else .eq

theorem orderNat_eq_iff (a b : Nat) : orderNat a b = .eq ↔ a = b := by
  unfold orderNat; split
  · simp; omega
  · split
    · simp; omega
    · simp; omega

theorem orderNat_lt_iff (a b : Nat) : orderNat a b = .lt ↔ a < b := by
  unfold orderNat; split
  · simp; omega
  · split <;> simp <;> omega

theorem orderNat_swap (a b : Nat) : (orderNat a b).swap = orderNat b a := by
  unfold orderNat; split
  · rw [if_neg (by omega)]; simp [*]
  · split <;> simp

/-- The order of two texts by code point. -/
def orderChars : List Char → List Char → Ordering
  | [], [] => .eq
  | [], _ :: _ => .lt
  | _ :: _, [] => .gt
  | a :: as, b :: bs => (orderNat a.toNat b.toNat).then (orderChars as bs)

/-- Only equal texts order as equal. -/
theorem orderChars_eq_iff (as bs : List Char) : orderChars as bs = .eq ↔ as = bs := by
  induction as generalizing bs with
  | nil => cases bs <;> simp [orderChars]
  | cons a as ih =>
    cases bs with
    | nil => simp [orderChars]
    | cons b bs =>
      simp [orderChars, Ordering.then_eq_eq, orderNat_eq_iff, ih, Char.toNat_inj]

/-- The order of two texts. -/
def order (a b : String) : Ordering := orderChars a.toList b.toList

theorem order_eq_iff (a b : String) : order a b = .eq ↔ a = b := by
  rw [order, orderChars_eq_iff, String.toList_inj]

end AssetAccess.Text
