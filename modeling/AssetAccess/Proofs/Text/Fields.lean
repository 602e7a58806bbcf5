import AssetAccess.Text.Blank
import AssetAccess.Text.Digits
import Mathlib.Data.List.Induction
set_option autoImplicit false

/-!
# Fields of a text

What is read off the front of a text stands there: a field of digits is the padded number that it
is read as (`fixed?_eq_some_iff`), and a mark is itself.  What is left of a text when the white
space around it is dropped has none at its ends, and is all but the white space (`trim_eq_iff`).
-/

namespace AssetAccess.Text

/-! ## Digits -/

theorem digit?_eq_some_iff {c : Char} {d : Nat} :
    digit? c = some d ↔ d < 10 ∧ c = digitChar d := by
  constructor
  · intro h
    rw [digit?] at h
    split at h
    · rename_i hdigit
      cases h
      have hrange : 48 ≤ c.toNat ∧ c.toNat ≤ 57 := by
        simpa [Char.isDigit, UInt32.le_iff_toNat_le] using hdigit
      refine ⟨by omega, ?_⟩
      rw [digitChar, Nat.add_sub_cancel' hrange.1, Char.ofNat_toNat]
    · cases h
  · rintro ⟨hd, rfl⟩
    exact digit?_digitChar hd

/-- A run of digits is the padded number that it stands for. -/
theorem numeral?_eq_some_iff {cs : List Char} {n : Nat} :
    numeral? 0 cs = some n ↔ n < Nat.pow 10 cs.length ∧ cs = padded cs.length n := by
  constructor
  · -- The last digit is split off, as it is where the number is written.
    intro h
    induction cs using List.reverseRecOn generalizing n with
    | nil =>
        cases h
        exact ⟨Nat.one_pos, rfl⟩
    | append_singleton cs c ih =>
        rw [numeral?_append, Option.bind_eq_some_iff] at h
        obtain ⟨before, hbefore, hlast⟩ := h
        obtain ⟨hbound, hpadded⟩ := ih hbefore
        rw [numeral?] at hlast
        split at hlast
        · rename_i d hdigit
          obtain ⟨hd, rfl⟩ := digit?_eq_some_iff.mp hdigit
          cases hlast
          have hpow : Nat.pow 10 (cs.length + 1) = Nat.pow 10 cs.length * 10 := rfl
          have hquotient : (10 * before + d) / 10 = before := by omega
          have hdigit : (10 * before + d) % 10 = d := by omega
          rw [List.length_append, List.length_singleton, padded, hquotient, hdigit, ← hpadded]
          exact ⟨by omega, rfl⟩
        · cases hlast
  · rintro ⟨hbound, hpadded⟩
    rw [hpadded, numeral?_padded _ _ _ hbound, Nat.zero_mul, Nat.zero_add]

/-- A field of digits at the front of a text is the padded number that is read. -/
theorem fixed?_eq_some_iff {width n : Nat} {cs rest : List Char} :
    fixed? width cs = some (n, rest) ↔ n < Nat.pow 10 width ∧ cs = padded width n ++ rest := by
  constructor
  · intro h
    rw [fixed?] at h
    split at h
    · cases h
    · rename_i hlength
      obtain ⟨m, hm, heq⟩ := Option.map_eq_some_iff.mp h
      cases heq
      have htake : (cs.take width).length = width := List.length_take_of_le (by omega)
      obtain ⟨hbound, hpadded⟩ := numeral?_eq_some_iff.mp hm
      rw [htake] at hbound hpadded
      refine ⟨hbound, ?_⟩
      rw [← hpadded, List.take_append_drop]
  · rintro ⟨hbound, rfl⟩
    exact fixed?_padded width n rest hbound

theorem mark?_eq_some_iff {m : Char} {cs rest : List Char} :
    mark? m cs = some rest ↔ cs = m :: rest := by
  cases cs with
  | nil => simp [mark?]
  | cons c cs =>
      rw [mark?]
      split
      · rename_i hc
        simp [hc]
      · rename_i hc
        simp [hc]

/-! ## White space around a text -/

/-- There is no white space at either end of the text. -/
def Trimmed (cs : List Char) : Prop :=
  (∀ c ∈ cs.head?, isBlank c = false) ∧ ∀ c ∈ cs.getLast?, isBlank c = false

/-- The second text is the first one with white space around it. -/
def BlanksAround (core cs : List Char) : Prop :=
  ∃ before after, (∀ c ∈ before, isBlank c = true) ∧ (∀ c ∈ after, isBlank c = true) ∧
    cs = before ++ core ++ after

theorem dropWhile_isBlank_of_head {cs : List Char} (h : ∀ c ∈ cs.head?, isBlank c = false) :
    cs.dropWhile isBlank = cs := by
  cases cs with
  | nil => rfl
  | cons c cs => rw [List.dropWhile_cons_of_neg (by simp [h c rfl])]

theorem head_dropWhile_isBlank (cs : List Char) :
    ∀ c ∈ (cs.dropWhile isBlank).head?, isBlank c = false := by
  have hhead := List.head?_dropWhile_not isBlank cs
  intro c hc
  rw [Option.mem_def.mp hc] at hhead
  simpa using hhead

theorem exists_blanks_append (cs : List Char) :
    ∃ blanks, (∀ c ∈ blanks, isBlank c = true) ∧ cs = blanks ++ cs.dropWhile isBlank :=
  ⟨cs.takeWhile isBlank, List.all_eq_true.mp List.all_takeWhile,
    List.takeWhile_append_dropWhile.symm⟩

/-- The text between white space that has none at its ends is what is left without it. -/
theorem trim_append {before core after : List Char} (hbefore : ∀ c ∈ before, isBlank c = true)
    (hafter : ∀ c ∈ after, isBlank c = true) (hcore : Trimmed core) :
    trim (before ++ core ++ after) = core := by
  have hreverse : ∀ c ∈ after.reverse, isBlank c = true :=
    fun c hc => hafter c (List.mem_reverse.mp hc)
  have hlast : ∀ c ∈ core.reverse.head?, isBlank c = false := by
    rw [List.head?_reverse]
    exact hcore.2
  rw [trim, List.append_assoc, List.dropWhile_append_of_pos hbefore]
  cases core with
  | nil =>
      have hnone : (after ++ []).dropWhile isBlank = [] := List.dropWhile_append_of_pos hafter
      rw [List.append_nil] at hnone
      rw [List.nil_append, hnone]
      rfl
  | cons c core =>
      have hhead : ∀ d ∈ (c :: core ++ after).head?, isBlank d = false := hcore.1
      rw [dropWhile_isBlank_of_head hhead, List.reverse_append,
        List.dropWhile_append_of_pos hreverse, dropWhile_isBlank_of_head hlast,
        List.reverse_reverse]

/-- Dropping the white space around a text leaves the one text without any at its ends that the
white space stands around. -/
theorem trim_eq_iff {cs core : List Char} :
    trim cs = core ↔ Trimmed core ∧ BlanksAround core cs := by
  constructor
  · rintro rfl
    obtain ⟨before, hbefore, hsplit⟩ := exists_blanks_append cs
    obtain ⟨after, hafter, hrest⟩ := exists_blanks_append (cs.dropWhile isBlank).reverse
    have htrim : cs.dropWhile isBlank = trim cs ++ after.reverse := by
      rw [trim, ← List.reverse_append, ← hrest, List.reverse_reverse]
    refine ⟨⟨?_, ?_⟩, before, after.reverse, hbefore, ?_, ?_⟩
    · intro c hc
      apply head_dropWhile_isBlank cs
      rw [htrim, List.head?_append, Option.mem_def.mp hc]
      rfl
    · intro c hc
      rw [trim, List.getLast?_reverse] at hc
      exact head_dropWhile_isBlank _ c hc
    · intro c hc
      exact hafter c (List.mem_reverse.mp hc)
    · rw [List.append_assoc, ← htrim, ← hsplit]
  · rintro ⟨hcore, before, after, hbefore, hafter, rfl⟩
    exact trim_append hbefore hafter hcore

end AssetAccess.Text
