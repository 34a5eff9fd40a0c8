import Mathlib.Data.List.DropRight
import Mathlib.Data.Nat.Factorization.Basic
import Mathlib.Data.Nat.Log
import Mathlib.Data.Rat.Lemmas
import Mathlib.Tactic.NormNum
import Mathlib.Tactic.IntervalCases
import Roadstead.Lib.Json.Plain

/-!
# Printing JSON

The encoder of Python's `json` module as it is when nothing is asked of it: what is printed is ASCII,
with a blank behind each comma and colon.

A float stands for the decimal that its shortest print spells, and is printed to its last digit.
`string_quotedText`: a string in print is read back.
-/

namespace Json

open Scanner (item many literal fail)

/-! ### Strings -/

/-- A hexadecimal number of four digits. -/
def hex4 (n : ℕ) : List Char :=
  [(n / 4096 % 16).digitChar, (n / 256 % 16).digitChar, (n / 16 % 16).digitChar, (n % 16).digitChar]

/-- The escape of a code point below 0x10000. -/
def escapeUnit (n : ℕ) : List Char := '\\' :: 'u' :: hex4 n

/-- The code points that stand for a character in a string of ASCII characters. -/
def codeUnits (c : Char) : List ℕ :=
  if c.toNat < 0x10000 then [c.toNat]
  else [0xd800 + (c.toNat - 0x10000) / 1024, 0xdc00 + (c.toNat - 0x10000) % 1024]

/-- A character in print. -/
def quoteChar (c : Char) : List Char :=
  if c = '"' then ['\\', '"']
  else if c = '\\' then ['\\', '\\']
  else if c = '\n' then ['\\', 'n']
  else if c = '\r' then ['\\', 'r']
  else if c = '\t' then ['\\', 't']
  else if c = '\x08' then ['\\', 'b']
  else if c = '\x0c' then ['\\', 'f']
  else if c.toNat < 32 then escapeUnit c.toNat
  else if 126 < c.toNat then (codeUnits c).flatMap escapeUnit
  else [c]

/-- A string in print, without its opening quote. -/
def quotedText (s : String) : List Char :=
  s.toList.flatMap quoteChar ++ ['"']

/-! ### Numbers -/

/-- An integer in print. -/
def intText (n : ℤ) : List Char :=
  if n < 0 then '-' :: Nat.toDigits 10 n.natAbs else Nat.toDigits 10 n.natAbs

/-- How many digits a rational number has after the point; there is no end to them if its denominator
divides no power of ten, and then it is cut off after those of a double. -/
def places (q : ℚ) : ℕ := ((List.range (q.den.log2 + 1)).find? fun k => q.den ∣ 10 ^ k).getD 17

/-- The digits of a number that is not negative, up to the last place. -/
def digitsOf (q : ℚ) : List Char := Nat.toDigits 10 (q.num.natAbs * 10 ^ places q / q.den)

/-- Where the point is, counted from the first digit. -/
def pointOf (q : ℚ) : ℤ := (digitsOf q).length - places q

/-- The digits, with zeros in front of them if there would be none before the point. -/
def padded (q : ℚ) : List Char :=
  List.replicate (places q + 1 - (digitsOf q).length) '0' ++ digitsOf q

/-- Digits before and after the point. -/
def positional (q : ℚ) : List Char :=
  (padded q).take ((padded q).length - places q) ++ '.' ::
    if places q = 0 then ['0'] else (padded q).drop ((padded q).length - places q)

/-- At least two digits. -/
def twoDigits (n : ℕ) : List Char :=
  if n < 10 then '0' :: Nat.toDigits 10 n else Nat.toDigits 10 n

/-- One digit before the point, and an exponent. -/
def scientific (q : ℚ) : List Char :=
  let exponent := pointOf q - 1
  let sign := if exponent < 0 then '-' else '+'
  match (digitsOf q).rdropWhile (· = '0') with
  | [] => ['0', '.', '0']
  | [d] => d :: 'e' :: sign :: twoDigits exponent.natAbs
  | d :: ds => d :: '.' :: ds ++ 'e' :: sign :: twoDigits exponent.natAbs

/-- `float.__repr__` on a number that is not negative. -/
def reprAbs (q : ℚ) : List Char :=
  if -4 < pointOf q ∧ pointOf q ≤ 16 then positional q else scientific q

/-- A float in print. -/
def fltText : Flt → List Char
  | .finite q => if q < 0 then '-' :: reprAbs (-q) else reprAbs q
  | .infinite false => "Infinity".toList
  | .infinite true => "-Infinity".toList
  | .nan => "NaN".toList

/-! ### Values -/

mutual

/-- `json.dumps`. -/
def dumps : Json → List Char
  | null => "null".toList
  | bool b => if b then "true".toList else "false".toList
  | int n => intText n
  | float x => fltText x
  | str s => '"' :: quotedText s
  | arr [] => ['[', ']']
  | arr (v :: items) => '[' :: dumps v ++ dumpsItems items ++ [']']
  | obj [] => ['{', '}']
  | obj ((key, v) :: fields) => '{' :: '"' :: quotedText key ++ ':' :: ' ' :: dumps v ++
      dumpsFields fields ++ ['}']

/-- The items of an array after its first one. -/
def dumpsItems : List Json → List Char
  | [] => []
  | v :: items => ',' :: ' ' :: dumps v ++ dumpsItems items

/-- The fields of an object after its first one. -/
def dumpsFields : List (String × Json) → List Char
  | [] => []
  | (key, v) :: fields => ',' :: ' ' :: '"' :: quotedText key ++ ':' :: ' ' :: dumps v ++
      dumpsFields fields

end

/-! ### What survives -/

/-- A float with finitely many digits. -/
def Decimal (q : ℚ) : Prop := q.den ∣ 10 ^ places q

instance (q : ℚ) : Decidable (Decimal q) := inferInstanceAs (Decidable (_ ∣ _))

mutual

/-- A value of which no object names a key twice, and of which each float is printed to its last
digit. -/
def Exact : Json → Prop
  | float (.finite q) => Decimal q
  | arr items => ExactItems items
  | obj fields => (fields.map Prod.fst).Nodup ∧ ExactFields fields
  | _ => True

def ExactItems : List Json → Prop
  | [] => True
  | v :: items => Exact v ∧ ExactItems items

def ExactFields : List (String × Json) → Prop
  | [] => True
  | (_, v) :: fields => Exact v ∧ ExactFields fields

end

/-- A divisor of a power of ten divides one that is no longer than itself. -/
theorem dvd_ten_pow_log {n k : ℕ} (dvd : n ∣ 10 ^ k) : n ∣ 10 ^ n.log2 := by
  have ne : n ≠ 0 := fun zero => absurd (zero_dvd_iff.mp (zero ▸ dvd)) (pow_ne_zero k (by decide))
  have ten : (10 : ℕ) = 2 * 5 := rfl
  rw [← Nat.factorization_le_iff_dvd ne (pow_ne_zero _ (by decide)), Nat.factorization_pow]
  have le := (Nat.factorization_le_iff_dvd ne (pow_ne_zero k (by decide))).mpr dvd
  rw [Nat.factorization_pow] at le
  intro p
  have bound : n.factorization p ≤ n.log2 := by
    rw [Nat.log2_eq_log_two]
    by_cases prime : p.Prime
    · refine Nat.le_log_of_pow_le (by decide) ?_
      exact (Nat.pow_le_pow_left prime.two_le _).trans
        (Nat.le_of_dvd (Nat.pos_of_ne_zero ne) (Nat.ordProj_dvd n p))
    · rw [Nat.factorization_eq_zero_of_not_prime n prime]
      exact Nat.zero_le _
  have own := le p
  rw [Finsupp.smul_apply, smul_eq_mul] at own ⊢
  rcases Nat.eq_zero_or_pos ((Nat.factorization 10) p) with zero | pos
  · rw [zero, mul_zero] at own ⊢
    exact own
  · exact bound.trans (Nat.le_mul_of_pos_right _ pos)

/-- A number has finitely many digits if its denominator divides some power of ten. -/
theorem decimal_of_dvd {q : ℚ} {k : ℕ} (dvd : q.den ∣ 10 ^ k) : Decimal q := by
  have short := dvd_ten_pow_log dvd
  rw [Decimal, places]
  cases found : (List.range (q.den.log2 + 1)).find? fun k => q.den ∣ 10 ^ k with
  | some k => simpa using List.find?_some found
  | none =>
      rw [List.find?_eq_none] at found
      exact absurd short (by simpa using found q.den.log2 (by simp))

theorem decimal_div_pow (n : ℤ) (k : ℕ) : Decimal ((n : ℚ) / 10 ^ k) := by
  refine decimal_of_dvd (k := k) ?_
  have dvd := Rat.den_dvd n (10 ^ k)
  exact_mod_cast dvd

/-! ### Strings are read back -/

theorem hexValue?_digitChar {d : ℕ} (lt : d < 16) : hexValue? d.digitChar = some d := by
  interval_cases d <;> rfl

theorem units_escapeUnit {n : ℕ} (lt : n < 0x10000) (rest : List Char) :
    units true .text (escapeUnit n ++ rest) =
      (units true .text rest).map fun found => (n :: found.1, found.2) := by
  have digit (k : ℕ) : hexValue? (k % 16).digitChar = some (k % 16) :=
    hexValue?_digitChar (Nat.mod_lt k (by decide))
  have sum : (((n / 4096 % 16 * 16 + n / 256 % 16) * 16 + n / 16 % 16) * 16 + n % 16) = n := by
    omega
  simp [escapeUnit, hex4, units, digit, sum]

theorem codeUnits_of_lt {c : Char} (lt : c.toNat < 0x10000) : codeUnits c = [c.toNat] := by
  rw [codeUnits, if_pos lt]

theorem toNat_lt (c : Char) : c.toNat < 0x110000 := by
  rcases c.valid with low | high
  · exact Nat.lt_trans low (by decide)
  · exact high.2

theorem units_codeUnits (c : Char) (rest : List Char) :
    units true .text ((codeUnits c).flatMap escapeUnit ++ rest) =
      (units true .text rest).map fun found => (codeUnits c ++ found.1, found.2) := by
  have bound := toNat_lt c
  rw [codeUnits]
  split
  · next lt =>
    rw [List.flatMap_cons, List.flatMap_nil, List.append_nil, units_escapeUnit lt]
    rfl
  · have high : 0xd800 + (c.toNat - 0x10000) / 1024 < 0x10000 := by omega
    have low : 0xdc00 + (c.toNat - 0x10000) % 1024 < 0x10000 := by omega
    rw [List.flatMap_cons, List.flatMap_cons, List.flatMap_nil, List.append_nil, List.append_assoc,
      units_escapeUnit high, units_escapeUnit low, Option.map_map]
    rfl

theorem units_quoteChar (c : Char) (rest : List Char) :
    units true .text (quoteChar c ++ rest) =
      (units true .text rest).map fun found => (codeUnits c ++ found.1, found.2) := by
  have short {c : Char} {e : Char} {u : ℕ} (unit : escape? e = some u) (same : c.toNat = u)
      (other : e ≠ 'u') : units true .text (['\\', e] ++ rest) =
        (units true .text rest).map fun found => (codeUnits c ++ found.1, found.2) := by
    have lt : c.toNat < 0x10000 := by
      rw [same]
      simp only [escape?] at unit
      split at unit <;> cases unit <;> decide
    rw [codeUnits_of_lt lt, same]
    simp [units, other, unit]
  rw [quoteChar]
  split_ifs with h1 h2 h3 h4 h5 h6 h7 control wide
  · exact short (e := '"') rfl (by rw [h1]; rfl) (by decide)
  · exact short (e := '\\') rfl (by rw [h2]; rfl) (by decide)
  · exact short (e := 'n') rfl (by rw [h3]; rfl) (by decide)
  · exact short (e := 'r') rfl (by rw [h4]; rfl) (by decide)
  · exact short (e := 't') rfl (by rw [h5]; rfl) (by decide)
  · exact short (e := 'b') rfl (by rw [h6]; rfl) (by decide)
  · exact short (e := 'f') rfl (by rw [h7]; rfl) (by decide)
  · have lt : c.toNat < 0x10000 := Nat.lt_trans control (by decide)
    rw [codeUnits_of_lt lt, units_escapeUnit lt]
    rfl
  · exact units_codeUnits c rest
  · rw [codeUnits_of_lt (by omega)]
    simp [units, h1, h2, control]

theorem units_quotedText (s : String) (rest : List Char) :
    units true .text (quotedText s ++ rest) = some (s.toList.flatMap codeUnits, rest) := by
  rw [quotedText, List.append_assoc]
  induction s.toList with
  | nil => simp [units]
  | cons c cs ih => rw [List.flatMap_cons, List.append_assoc, units_quoteChar, ih]; rfl

/-- A character is no surrogate. -/
theorem joinSurrogates_cons (c : Char) (us : List ℕ) :
    joinSurrogates (c.toNat :: us) = c :: joinSurrogates us := by
  have valid : ¬ (0xd800 ≤ c.toNat ∧ c.toNat ≤ 0xdbff) := by
    rintro ⟨ge, le⟩
    rcases c.valid with low | ⟨high, -⟩
    · exact absurd low (Nat.not_lt_of_le ge)
    · have := Nat.lt_of_lt_of_le high le
      omega
  cases us with
  | nil => rw [joinSurrogates, charOf_toNat]; rfl
  | cons u us =>
      rw [joinSurrogates, if_neg fun both => valid ⟨both.1, both.2.1⟩, charOf_toNat]

theorem joinSurrogates_codeUnits (cs : List Char) :
    joinSurrogates (cs.flatMap codeUnits) = cs := by
  induction cs with
  | nil => rfl
  | cons c cs ih =>
      rw [List.flatMap_cons, codeUnits]
      split
      · rw [List.singleton_append, joinSurrogates_cons, ih]
      · next wide =>
        have bound := toNat_lt c
        have joined : 0x10000 + (0xd800 + (c.toNat - 0x10000) / 1024 - 0xd800) * 1024 +
            (0xdc00 + (c.toNat - 0x10000) % 1024 - 0xdc00) = c.toNat := by omega
        have surrogates : 0xd800 ≤ 0xd800 + (c.toNat - 0x10000) / 1024 ∧
            0xd800 + (c.toNat - 0x10000) / 1024 ≤ 0xdbff ∧
            0xdc00 ≤ 0xdc00 + (c.toNat - 0x10000) % 1024 ∧
            0xdc00 + (c.toNat - 0x10000) % 1024 ≤ 0xdfff := by omega
        rw [List.cons_append, List.cons_append, List.nil_append, joinSurrogates,
          if_pos surrogates, joined, charOf_toNat, ih]

/-- A string is read back. -/
theorem string_quotedText (s : String) (rest : List Char) :
    string true (quotedText s ++ rest) = some (s, rest) := by
  rw [string, Scanner.bind_of_some (units_quotedText s rest), joinSurrogates_codeUnits,
    String.ofList_toList]
  rfl

end Json
