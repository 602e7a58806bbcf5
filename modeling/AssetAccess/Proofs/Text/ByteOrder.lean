import AssetAccess.Text.Order
set_option autoImplicit false

/-!
# The byte order of texts

An index orders the texts of a field byte by byte, in UTF-8.  Here the order of two
byte lists is written down on its own, and the order of texts by code point is shown to
be the order of their UTF-8 forms.

The argument is about one character at a time.  The form of a code point is a run of
digits to base 64 behind a first byte, which also tells how many digits follow, and
longer forms begin with greater bytes; so the first byte at which two forms differ
decides as the code points do.
-/

namespace AssetAccess.Text

/-! ## Byte lists -/

/-- The order of two byte lists: the first difference decides, and a proper initial part
comes before its extensions. -/
def orderBytes : List UInt8 → List UInt8 → Ordering
  | [], [] => .eq
  | [], _ :: _ => .lt
  | _ :: _, [] => .gt
  | a :: as, b :: bs => (orderNat a.toNat b.toNat).then (orderBytes as bs)

/-- The UTF-8 form of a text, byte by byte. -/
def bytes (s : String) : List UInt8 := s.toList.flatMap String.utf8EncodeChar

/-- The order of two texts by their bytes. -/
def byteOrder (a b : String) : Ordering := orderBytes (bytes a) (bytes b)

/-- The bytes of a text are those that it is stored in. -/
theorem bytes_eq_toByteArray (s : String) : (bytes s).toByteArray = s.toByteArray := by
  rw [← String.utf8Encode_toList]
  rfl

/-- Two lists order as their first bytes do, if these differ. -/
theorem orderBytes_ofNat {p q : Nat} (hp : p < 256) (hq : q < 256) (x y : List UInt8) :
    orderBytes (UInt8.ofNat p :: x) (UInt8.ofNat q :: y) =
      (orderNat p q).then (orderBytes x y) := by
  have hp' : (UInt8.ofNat p).toNat = p := UInt8.toNat_ofNat_of_lt' hp
  have hq' : (UInt8.ofNat q).toNat = q := UInt8.toNat_ofNat_of_lt' hq
  rw [orderBytes, hp', hq']

/-! ## Digits to base 64 -/

theorem orderNat_gt_iff (a b : Nat) : orderNat a b = .gt ↔ b < a := by
  rw [← orderNat_lt_iff b a, ← orderNat_swap a b]
  cases orderNat a b <;> simp

/-- A common offset does not change an order. -/
theorem orderNat_add_right (a b offset : Nat) :
    orderNat (a + offset) (b + offset) = orderNat a b := by
  simp only [orderNat, Nat.add_lt_add_iff_right]

/-- Numbers order by their last digit where the rest of their digits is the same. -/
theorem orderNat_div_then_mod (base a b : Nat) :
    (orderNat (a / base) (b / base)).then (orderNat (a % base) (b % base)) = orderNat a b := by
  have ha : a % base + base * (a / base) = a := Nat.mod_add_div a base
  have hb : b % base + base * (b / base) = b := Nat.mod_add_div b base
  cases hq : orderNat (a / base) (b / base) with
  | lt =>
      rw [orderNat_lt_iff] at hq
      exact ((orderNat_lt_iff a b).mpr (Nat.lt_of_div_lt_div hq)).symm
  | eq =>
      rw [orderNat_eq_iff] at hq
      rw [hq] at ha
      calc orderNat (a % base) (b % base)
          = orderNat (a % base + base * (b / base)) (b % base + base * (b / base)) :=
            (orderNat_add_right _ _ _).symm
        _ = orderNat a b := by rw [ha, hb]
  | gt =>
      rw [orderNat_gt_iff] at hq
      exact ((orderNat_gt_iff a b).mpr (Nat.lt_of_div_lt_div hq)).symm

/-- A number without its last digits to base 64. -/
def leading : Nat → Nat → Nat
  | 0, v => v
  | k + 1, v => leading k (v / 64)

/-- The last digits of a number to base 64, each as a continuation byte. -/
def continuation : Nat → Nat → List UInt8
  | 0, _ => []
  | k + 1, v => continuation k (v / 64) ++ [UInt8.ofNat (v % 64 + 0x80)]

/-- The leading part and then the continuation bytes order as the numbers do. -/
theorem leading_then_continuation (k a b : Nat) (x y : List UInt8) :
    (orderNat (leading k a) (leading k b)).then
        (orderBytes (continuation k a ++ x) (continuation k b ++ y)) =
      (orderNat a b).then (orderBytes x y) := by
  induction k generalizing a b x y with
  | zero => rfl
  | succ k ih =>
      have ha : a % 64 + 0x80 < 256 := by omega
      have hb : b % 64 + 0x80 < 256 := by omega
      simp only [leading, continuation, List.append_assoc, List.cons_append, List.nil_append]
      rw [ih, orderBytes_ofNat ha hb, orderNat_add_right, ← Ordering.then_assoc,
        orderNat_div_then_mod]

/-! ## Code points -/

/-- The number of continuation bytes of a code point. -/
def continuationLength (v : Nat) : Nat :=
  if v ≤ 0x7f then 0 else if v ≤ 0x7ff then 1 else if v ≤ 0xffff then 2 else 3

/-- What the first byte carries beside the leading digits. -/
def leadMark : Nat → Nat
  | 0 => 0
  | 1 => 0xc0
  | 2 => 0xe0
  | _ => 0xf0

/-- The first byte of a code point. -/
def leadByte (v : Nat) : Nat :=
  leading (continuationLength v) v + leadMark (continuationLength v)

theorem toNat_lt_of_char (c : Char) : c.toNat < 0x110000 := by
  have h := c.valid
  simp only [UInt32.isValidChar, Nat.isValidChar] at h
  show c.val.toNat < 0x110000
  omega

/-- The four ranges of code points, by the length of their forms. -/
theorem leadByte_cases (v : Nat) :
    (v ≤ 0x7f ∧ continuationLength v = 0 ∧ leadByte v = v) ∨
    (0x7f < v ∧ v ≤ 0x7ff ∧ continuationLength v = 1 ∧ leadByte v = v / 64 + 0xc0) ∨
    (0x7ff < v ∧ v ≤ 0xffff ∧ continuationLength v = 2 ∧ leadByte v = v / 64 / 64 + 0xe0) ∨
    (0xffff < v ∧ continuationLength v = 3 ∧ leadByte v = v / 64 / 64 / 64 + 0xf0) := by
  by_cases h1 : v ≤ 0x7f
  · have hlength : continuationLength v = 0 := by simp [continuationLength, h1]
    exact .inl ⟨h1, hlength, by simp [leadByte, hlength, leading, leadMark]⟩
  · by_cases h2 : v ≤ 0x7ff
    · have hlength : continuationLength v = 1 := by simp [continuationLength, h1, h2]
      exact .inr (.inl ⟨by omega, h2, hlength, by simp [leadByte, hlength, leading, leadMark]⟩)
    · by_cases h3 : v ≤ 0xffff
      · have hlength : continuationLength v = 2 := by simp [continuationLength, h1, h2, h3]
        exact .inr (.inr (.inl
          ⟨by omega, h3, hlength, by simp [leadByte, hlength, leading, leadMark]⟩))
      · have hlength : continuationLength v = 3 := by simp [continuationLength, h1, h2, h3]
        exact .inr (.inr (.inr
          ⟨by omega, hlength, by simp [leadByte, hlength, leading, leadMark]⟩))

theorem leadByte_lt {v : Nat} (h : v < 0x110000) : leadByte v < 256 := by
  rcases leadByte_cases v with hv | hv | hv | hv <;> omega

/-- Of two code points, the one with the longer form is the greater one, and so is its
first byte. -/
theorem leadByte_lt_of_length_lt {a b : Nat}
    (h : continuationLength a < continuationLength b) : a < b ∧ leadByte a < leadByte b := by
  rcases leadByte_cases a with ha | ha | ha | ha <;>
    rcases leadByte_cases b with hb | hb | hb | hb <;> omega

/-- The UTF-8 form of a character. -/
theorem utf8EncodeChar_eq (c : Char) :
    String.utf8EncodeChar c =
      UInt8.ofNat (leadByte c.toNat) :: continuation (continuationLength c.toNat) c.toNat := by
  have hbound := toNat_lt_of_char c
  have hval : c.val.toNat = c.toNat := rfl
  rcases leadByte_cases c.toNat with ⟨h, hlength, hlead⟩ | ⟨hlow, h, hlength, hlead⟩ |
      ⟨hlow, h, hlength, hlead⟩ | ⟨hlow, hlength, hlead⟩
  · simp [String.utf8EncodeChar, hval, h, hlength, hlead, continuation]
  · have hd : c.toNat / 64 % 32 = c.toNat / 64 := by omega
    simp [String.utf8EncodeChar, hval, Nat.not_le.mpr hlow, h, hlength, hlead, continuation, hd]
  · have hd : c.toNat / 4096 % 16 = c.toNat / 64 / 64 := by omega
    simp [String.utf8EncodeChar, hval, Nat.not_le.mpr hlow, h, hlength, hlead, continuation, hd,
      show ¬ c.toNat ≤ 127 by omega]
  · have hd : c.toNat / 262144 % 8 = c.toNat / 64 / 64 / 64 := by omega
    have hm : c.toNat / 4096 % 64 = c.toNat / 64 / 64 % 64 := by omega
    simp [String.utf8EncodeChar, hval, Nat.not_le.mpr hlow, hlength, hlead, continuation, hd, hm,
      show ¬ c.toNat ≤ 127 by omega, show ¬ c.toNat ≤ 2047 by omega]

/-- Texts order by their first character, in UTF-8 as by code point. -/
theorem orderBytes_utf8EncodeChar (a b : Char) (x y : List UInt8) :
    orderBytes (String.utf8EncodeChar a ++ x) (String.utf8EncodeChar b ++ y) =
      (orderNat a.toNat b.toNat).then (orderBytes x y) := by
  have ha := leadByte_lt (toNat_lt_of_char a)
  have hb := leadByte_lt (toNat_lt_of_char b)
  rw [utf8EncodeChar_eq, utf8EncodeChar_eq, List.cons_append, List.cons_append,
    orderBytes_ofNat ha hb]
  rcases Nat.lt_trichotomy (continuationLength a.toNat) (continuationLength b.toNat) with
    hlt | heq | hgt
  · obtain ⟨hcode, hlead⟩ := leadByte_lt_of_length_lt hlt
    rw [(orderNat_lt_iff _ _).mpr hcode, (orderNat_lt_iff _ _).mpr hlead]
    rfl
  · rw [leadByte, leadByte, heq, orderNat_add_right, leading_then_continuation]
  · obtain ⟨hcode, hlead⟩ := leadByte_lt_of_length_lt hgt
    rw [(orderNat_gt_iff _ _).mpr hcode, (orderNat_gt_iff _ _).mpr hlead]
    rfl

/-! ## Texts -/

theorem utf8EncodeChar_append_ne_nil (c : Char) (x : List UInt8) :
    ∃ d ds, String.utf8EncodeChar c ++ x = d :: ds := by
  rw [utf8EncodeChar_eq]
  exact ⟨_, _, List.cons_append⟩

/-- The order of two lists of characters is that of their UTF-8 forms. -/
theorem orderBytes_flatMap (as bs : List Char) :
    orderBytes (as.flatMap String.utf8EncodeChar) (bs.flatMap String.utf8EncodeChar) =
      orderChars as bs := by
  induction as generalizing bs with
  | nil =>
      cases bs with
      | nil => rfl
      | cons b bs =>
          obtain ⟨d, ds, hd⟩ := utf8EncodeChar_append_ne_nil b (bs.flatMap String.utf8EncodeChar)
          rw [List.flatMap_cons, hd]
          rfl
  | cons a as ih =>
      cases bs with
      | nil =>
          obtain ⟨d, ds, hd⟩ := utf8EncodeChar_append_ne_nil a (as.flatMap String.utf8EncodeChar)
          rw [List.flatMap_cons, hd]
          rfl
      | cons b bs =>
          rw [List.flatMap_cons, List.flatMap_cons, orderBytes_utf8EncodeChar, ih, orderChars]

/-- Texts order as their UTF-8 forms do. -/
theorem byteOrder_eq_order (a b : String) : byteOrder a b = order a b :=
  orderBytes_flatMap a.toList b.toList

end AssetAccess.Text
