import Mathlib.Data.Int.Notation
import Mathlib.Data.List.TakeWhile
/-!
# Decimal numerals, and what `std::stoi` makes of others

A numeral is one or more digits and nothing else. `stoi` reads more than
numerals: it skips blanks, takes a sign, and leaves what follows the
digits. A `Spelling` is a text it reads a number from, in its parts;
`stoi` answers exactly where the text is the text of one whose value
fits in an `int` (`stoi_eq_ok_iff`), and the numerals are the plain
spellings, those that have digits only (`numeral?_eq_some_iff`).
-/

namespace Decimal

/-- The characters `isspace` holds of: the blank, and from tab to carriage
return. -/
def isSpace (c : Char) : Bool := c.toNat = 32 || (9 ≤ c.toNat && c.toNat ≤ 13)

/-- The number of a numeral. -/
def numeral? (s : List Char) : Option ℕ :=
  if s ≠ [] ∧ s.all Char.isDigit = true then some (Nat.ofDigitChars 10 s 0) else none

/-- What `stoi` throws. -/
inductive StoiError where
  | invalidArgument
  | outOfRange
deriving DecidableEq

/-- A sign, if any. -/
inductive Sign where
  | none
  | plus
  | minus
deriving DecidableEq

def Sign.text : Sign → List Char
  | none => []
  | plus => ['+']
  | minus => ['-']

/-- A number under a sign. -/
def Sign.apply (sign : Sign) (n : ℕ) : ℤ :=
  match sign with
  | minus => -n
  | none | plus => n

/-- The sign a text begins with, and what comes after it. -/
def splitSign : List Char → Sign × List Char
  | '+' :: rest => (.plus, rest)
  | '-' :: rest => (.minus, rest)
  | rest => (.none, rest)

/-- Whether a number fits in an `int` of 32 bits. -/
def FitsInt (n : ℤ) : Prop := -2147483648 ≤ n ∧ n ≤ 2147483647

instance (n : ℤ) : Decidable (FitsInt n) := inferInstanceAs (Decidable (_ ∧ _))

/-- `std::stoi`. -/
def stoi (s : List Char) : Except StoiError ℤ :=
  let (sign, rest) := splitSign (s.dropWhile isSpace)
  let digits := rest.takeWhile Char.isDigit
  if digits = [] then .error .invalidArgument
  else
    let value := sign.apply (Nat.ofDigitChars 10 digits 0)
    if FitsInt value then .ok value else .error .outOfRange

/-- **A text that spells a number**, in its parts. -/
structure Spelling where
  blanks : List Char
  sign : Sign
  digits : List Char
  rest : List Char
  blanks_isSpace : ∀ c ∈ blanks, isSpace c = true
  digits_ne_nil : digits ≠ []
  digits_isDigit : ∀ c ∈ digits, c.isDigit = true
  rest_not_isDigit : ∀ c ∈ rest.head?, c.isDigit = false

namespace Spelling

variable (p : Spelling)

def text : List Char := p.blanks ++ (p.sign.text ++ (p.digits ++ p.rest))

def value : ℤ := p.sign.apply (Nat.ofDigitChars 10 p.digits 0)

/-- Digits and nothing else. -/
def Plain : Prop := p.blanks = [] ∧ p.sign = .none ∧ p.rest = []

end Spelling

/-! ## Blanks, signs and digits are told apart by one character -/

theorem isSpace_of_isDigit {c : Char} (h : c.isDigit = true) : isSpace c = false := by
  obtain ⟨hlow, hhigh⟩ := Char.isDigit_iff_toNat.mp h
  have h0 : '0'.toNat = 48 := rfl
  have h9 : '9'.toNat = 57 := rfl
  have hfar : ¬ (c.toNat = 32 ∨ 9 ≤ c.toNat ∧ c.toNat ≤ 13) := by omega
  simpa [isSpace] using hfar

/-- What begins with a digit begins with no sign. -/
theorem splitSign_of_isDigit {c : Char} (h : c.isDigit = true) (s : List Char) :
    splitSign (c :: s) = (.none, c :: s) := by
  unfold splitSign
  split
  · rename_i heq
    obtain ⟨rfl, -⟩ := List.cons.inj heq
    cases h
  · rename_i heq
    obtain ⟨rfl, -⟩ := List.cons.inj heq
    cases h
  · rfl

theorem text_append_splitSign (s : List Char) : (splitSign s).1.text ++ (splitSign s).2 = s := by
  unfold splitSign
  split <;> rfl

/-! ## What `stoi` reads -/

namespace Spelling

variable {p : Spelling}

theorem takeWhile_digits : (p.digits ++ p.rest).takeWhile Char.isDigit = p.digits := by
  have hrest : p.rest.takeWhile Char.isDigit = [] := by
    cases hlist : p.rest with
    | nil => rfl
    | cons c rest =>
      have hfirst := p.rest_not_isDigit c (by rw [hlist]; rfl)
      rw [List.takeWhile_cons, hfirst]
      rfl
  rw [List.takeWhile_append_of_pos p.digits_isDigit, hrest, List.append_nil]

/-- Past the blanks comes a sign or a digit, so `stoi` finds the parts. -/
theorem splitSign_dropWhile_text :
    splitSign (p.text.dropWhile isSpace) = (p.sign, p.digits ++ p.rest) := by
  rw [text, List.dropWhile_append_of_pos p.blanks_isSpace]
  cases hsign : p.sign with
  | plus => rfl
  | minus => rfl
  | none =>
    obtain ⟨c, digits, hdigits⟩ := List.exists_cons_of_ne_nil p.digits_ne_nil
    have hc : c.isDigit = true := p.digits_isDigit c (by rw [hdigits]; exact List.mem_cons_self)
    have hspace := isSpace_of_isDigit hc
    have htext : Sign.none.text ++ (p.digits ++ p.rest) = c :: (digits ++ p.rest) := by
      rw [hdigits]
      rfl
    rw [htext, List.dropWhile_cons, hspace, if_neg Bool.false_ne_true, splitSign_of_isDigit hc,
      hdigits, List.cons_append]

/-- **`stoi` reads a spelling's value**, if it fits. -/
theorem stoi_text :
    stoi p.text = if FitsInt p.value then .ok p.value else .error .outOfRange := by
  simp only [stoi, splitSign_dropWhile_text, takeWhile_digits, if_neg p.digits_ne_nil]
  rfl

end Spelling

/-- And reads nothing else. -/
theorem exists_spelling {s : List Char} {n : ℤ} (h : stoi s = .ok n) :
    ∃ p : Spelling, p.text = s ∧ p.value = n ∧ FitsInt n := by
  set rest := (splitSign (s.dropWhile isSpace)).2 with hrest
  have hsplit := text_append_splitSign (s.dropWhile isSpace)
  simp only [stoi] at h
  split at h
  · cases h
  · rename_i hdigits
    split at h
    · rename_i hfits
      obtain rfl := Except.ok.inj h
      have hfirst : ∀ c ∈ (rest.dropWhile Char.isDigit).head?, c.isDigit = false := by
        intro c hc
        have hnot := List.head?_dropWhile_not Char.isDigit rest
        rw [Option.mem_def.mp hc] at hnot
        exact hnot
      let p : Spelling :=
        { blanks := s.takeWhile isSpace
          sign := (splitSign (s.dropWhile isSpace)).1
          digits := rest.takeWhile Char.isDigit
          rest := rest.dropWhile Char.isDigit
          blanks_isSpace := fun c hc => List.mem_takeWhile_imp hc
          digits_ne_nil := hdigits
          digits_isDigit := fun c hc => List.mem_takeWhile_imp hc
          rest_not_isDigit := hfirst }
      refine ⟨p, ?_, rfl, hfits⟩
      change s.takeWhile isSpace ++ ((splitSign (s.dropWhile isSpace)).1.text ++
        (rest.takeWhile Char.isDigit ++ rest.dropWhile Char.isDigit)) = s
      rw [List.takeWhile_append_dropWhile, hrest, hsplit, List.takeWhile_append_dropWhile]
    · cases h

/-- **The numbers `stoi` reads** are the values of spellings that fit. -/
theorem stoi_eq_ok_iff {s : List Char} {n : ℤ} :
    stoi s = .ok n ↔ FitsInt n ∧ ∃ p : Spelling, p.text = s ∧ p.value = n := by
  constructor
  · intro h
    obtain ⟨p, htext, hvalue, hfits⟩ := exists_spelling h
    exact ⟨hfits, p, htext, hvalue⟩
  · rintro ⟨hfits, p, rfl, rfl⟩
    rw [Spelling.stoi_text, if_pos hfits]

/-! ## Numerals -/

/-- The parts of a numeral. -/
def plain (s : List Char) (hne : s ≠ []) (hdigits : ∀ c ∈ s, c.isDigit = true) : Spelling where
  blanks := []
  sign := .none
  digits := s
  rest := []
  blanks_isSpace := nofun
  digits_ne_nil := hne
  digits_isDigit := hdigits
  rest_not_isDigit := nofun

/-- **The numerals are the plain spellings.** -/
theorem numeral?_eq_some_iff {s : List Char} {n : ℕ} :
    numeral? s = some n ↔ ∃ p : Spelling, p.Plain ∧ p.text = s ∧ p.value = n := by
  rw [numeral?]
  constructor
  · intro h
    split at h
    · rename_i hs
      obtain rfl := Option.some.inj h
      exact ⟨plain s hs.1 (List.all_eq_true.mp hs.2), ⟨rfl, rfl, rfl⟩, List.append_nil s, rfl⟩
    · cases h
  · rintro ⟨p, ⟨hblanks, hsign, hrest⟩, rfl, hvalue⟩
    have htext : p.text = p.digits := by
      rw [Spelling.text, hblanks, hsign, hrest, List.append_nil]
      rfl
    have hnumber : (Nat.ofDigitChars 10 p.digits 0 : ℤ) = n := by
      rw [← hvalue, Spelling.value, hsign]
      rfl
    rw [htext, if_pos ⟨p.digits_ne_nil, List.all_eq_true.mpr p.digits_isDigit⟩,
      Int.ofNat.inj hnumber]

/-- A text of digits only has no other parts. -/
theorem Spelling.plain_of_forall_isDigit {p : Spelling} (h : ∀ c ∈ p.text, c.isDigit = true) :
    p.Plain := by
  simp only [text, List.mem_append] at h
  refine ⟨List.eq_nil_iff_forall_not_mem.mpr fun c hc => ?_, ?_, ?_⟩
  · have hspace := p.blanks_isSpace c hc
    have hnot := isSpace_of_isDigit (h c (.inl hc))
    exact absurd (hspace.symm.trans hnot) nofun
  · cases hsign : p.sign with
    | none => rfl
    | plus =>
      have hplus := h '+' (.inr (.inl (by rw [hsign]; exact List.mem_cons_self)))
      cases hplus
    | minus =>
      have hminus := h '-' (.inr (.inl (by rw [hsign]; exact List.mem_cons_self)))
      cases hminus
  · cases hrest : p.rest with
    | nil => rfl
    | cons c rest =>
      have hnot := p.rest_not_isDigit c (by rw [hrest]; rfl)
      have hdigit := h c (.inr (.inr (.inr (by rw [hrest]; exact List.mem_cons_self))))
      exact absurd (hdigit.symm.trans hnot) nofun

/-- So a text has a number as a numeral, or none of its spellings is
plain. -/
theorem Spelling.plain_iff {p : Spelling} : p.Plain ↔ ∃ n, numeral? p.text = some n := by
  constructor
  · intro hplain
    obtain ⟨n, hn⟩ : ∃ n : ℕ, p.value = n := by
      rw [value, hplain.2.1]
      exact ⟨_, rfl⟩
    exact ⟨n, numeral?_eq_some_iff.mpr ⟨p, hplain, rfl, hn⟩⟩
  · rintro ⟨n, hn⟩
    rw [numeral?] at hn
    split at hn
    · rename_i hdigits
      exact plain_of_forall_isDigit (List.all_eq_true.mp hdigits.2)
    · cases hn

end Decimal
