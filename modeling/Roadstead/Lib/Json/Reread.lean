import Mathlib.Algebra.Order.Ring.Rat
import Mathlib.Data.Rat.Lemmas
import Mathlib.Tactic.FieldSimp
import Mathlib.Tactic.Ring
import Roadstead.Lib.Json.Dump
import Roadstead.Lib.Json.Extend

/-!
# Reading back what was printed

`rawDecode_dumps`: a value in print is read back, whatever follows, if that does not go on with a
number.  The value must be one that a program can have (`Exact`): no object names a key twice, and a
float has finitely many digits.
-/

namespace Json

open Scanner (item many literal fail)

/-! ### Numbers are read back -/

/-- What follows does not go on with a number. -/
def Ends (rest : List Char) : Prop := rest = [] ∨ Follows rest

theorem many_isDigit {ds rest : List Char} (digits : ∀ c ∈ ds, c.isDigit = true)
    (stops : ∀ c s, rest = c :: s → c.isDigit = false) :
    many Char.isDigit (ds ++ rest) = some (ds, rest) := by
  have none_left : rest.takeWhile Char.isDigit = [] ∧ rest.dropWhile Char.isDigit = rest := by
    cases rest with
    | nil => exact ⟨rfl, rfl⟩
    | cons c s =>
        have stop := stops c s rfl
        exact ⟨List.takeWhile_cons_of_neg (by simp [stop]), List.dropWhile_cons_of_neg (by simp [stop])⟩
  rw [Scanner.many_eq_some, List.takeWhile_append_of_pos digits, List.dropWhile_append_of_pos digits,
    none_left.1, none_left.2, List.append_nil]
  exact ⟨rfl, rfl⟩

theorem Ends.stops {rest : List Char} (ends : Ends rest) (c : Char) (s : List Char)
    (same : rest = c :: s) : c.isDigit = false := by
  rcases ends with rfl | ⟨c', s', rfl, stop, -⟩
  · cases same
  · rw [← (List.cons.inj same).1]
    exact stop

theorem Ends.exponent_eq_none {rest : List Char} (ends : Ends rest) : exponent rest = none := by
  rcases ends with rfl | ⟨c, s, rfl, -, -, ne, ne'⟩
  · rfl
  · exact Json.exponent_eq_none s ne ne'

theorem digits_append {d : Char} {ds rest : List Char} (digits : ∀ c ∈ d :: ds, c.isDigit = true)
    (stops : ∀ c s, rest = c :: s → c.isDigit = false) :
    Json.digits (d :: ds ++ rest) = some (d :: ds, rest) := by
  rw [List.forall_mem_cons] at digits
  have read := many_isDigit digits.2 stops
  rw [Json.digits, List.cons_append, Scanner.bind_of_some (Scanner.item_eq_some.mpr rfl),
    if_pos digits.1, Scanner.bind_of_some read]
  rfl

/-- The fraction of a number in print. -/
def fractionText : Option (List Char) → List Char
  | none => []
  | some ds => '.' :: ds

/-- The exponent of a number in print. -/
def exponentText : Option (Bool × List Char) → List Char
  | none => []
  | some (negative, ds) => 'e' :: (if negative then '-' else '+') :: ds

theorem exponent_append {negative : Bool} {ds rest : List Char} (ne : ds ≠ [])
    (digits : ∀ c ∈ ds, c.isDigit = true) (ends : Ends rest) :
    exponent (exponentText (some (negative, ds)) ++ rest) = some ((negative, ds), rest) := by
  obtain ⟨d, ds, rfl⟩ := List.exists_cons_of_ne_nil ne
  have read := digits_append digits ends.stops
  rw [exponent, exponentText, List.cons_append, List.cons_append,
    Scanner.bind_of_some (Scanner.item_eq_some.mpr rfl), if_pos (Or.inl rfl),
    Scanner.bind_of_some (Scanner.item_eq_some.mpr rfl)]
  cases negative
  · rw [if_neg Bool.false_ne_true, if_pos (Or.inr rfl), Scanner.bind_of_some read]
    rfl
  · rw [if_pos rfl, if_pos (Or.inl rfl), Scanner.bind_of_some read]
    rfl

theorem fraction_append {ds rest : List Char} (ne : ds ≠ [])
    (digits : ∀ c ∈ ds, c.isDigit = true) (stops : ∀ c s, rest = c :: s → c.isDigit = false) :
    fraction (fractionText (some ds) ++ rest) = some (ds, rest) := by
  obtain ⟨d, ds, rfl⟩ := List.exists_cons_of_ne_nil ne
  rw [fraction, fractionText, List.cons_append, Scanner.bind_of_some (Scanner.item_eq_some.mpr rfl),
    if_pos rfl, digits_append digits stops]

/-- What comes after the fraction goes on with neither digits nor a point. -/
theorem exponentText_stops (exp : Option (Bool × List Char)) {rest : List Char} (ends : Ends rest)
    (c : Char) (s : List Char) (same : exponentText exp ++ rest = c :: s) :
    c.isDigit = false ∧ c ≠ '.' := by
  cases exp with
  | none =>
      rcases ends with rfl | ⟨c', s', rfl, stop, ne, -⟩
      · cases same
      · rw [← (List.cons.inj same).1]
        exact ⟨stop, ne⟩
  | some e =>
      rw [← (List.cons.inj same).1]
      exact ⟨rfl, by decide⟩

/-- A number is read up to its end. -/
theorem number_append (negative : Bool) {d : Char} {ds rest : List Char}
    {frac : Option (List Char)} {exp : Option (Bool × List Char)} (lead : d = '0' → ds = [])
    (whole : ∀ c ∈ ds, c.isDigit = true)
    (fractional : ∀ f ∈ frac, f ≠ [] ∧ ∀ c ∈ f, c.isDigit = true)
    (scaled : ∀ e ∈ exp, e.2 ≠ [] ∧ ∀ c ∈ e.2, c.isDigit = true) (ends : Ends rest) :
    number negative d (ds ++ (fractionText frac ++ (exponentText exp ++ rest))) =
      some (numberValue negative (d :: ds) frac exp, rest) := by
  have stops := exponentText_stops exp ends
  have last : maybe exponent (exponentText exp ++ rest) = some (exp, rest) := by
    cases exp with
    | none => exact maybe_of_none ends.exponent_eq_none
    | some e => exact maybe_of_some (exponent_append (scaled e rfl).1 (scaled e rfl).2 ends)
  have middle : maybe fraction (fractionText frac ++ (exponentText exp ++ rest)) =
      some (frac, exponentText exp ++ rest) := by
    cases frac with
    | none =>
        refine maybe_of_none ?_
        rw [fractionText, List.nil_append]
        generalize exponentText exp ++ rest = s at stops
        cases s with
        | nil => rfl
        | cons c s => exact fraction_eq_none s (stops c s rfl).2
    | some f =>
        exact maybe_of_some (fraction_append (fractional f rfl).1 (fractional f rfl).2
          fun c s same => (stops c s same).1)
  have first : wholeRest d (ds ++ (fractionText frac ++ (exponentText exp ++ rest))) =
      some (ds, fractionText frac ++ (exponentText exp ++ rest)) := by
    rw [wholeRest]
    split
    · next zero =>
      rw [lead zero]
      rfl
    · refine many_isDigit whole fun c s same => ?_
      cases frac with
      | none => exact (stops c s same).1
      | some f =>
          rw [← (List.cons.inj same).1]
          rfl
  rw [number, Scanner.bind_of_some first, Scanner.bind_of_some middle, Scanner.bind_of_some last]
  rfl

/-- A text that, as the start of a value, is read as `v`. -/
def Spells (text : List Char) (v : Json) : Prop :=
  ∃ c s, text = c :: s ∧ isWs c = false ∧ ∀ members elements rest, Ends rest →
    valueWith members elements c (s ++ rest) = some (v, rest)

theorem literal_append (cs rest : List Char) : literal cs (cs ++ rest) = some ((), rest) := by
  induction cs with
  | nil => rfl
  | cons c cs ih =>
      rw [literal, List.cons_append, Scanner.bind_of_some (Scanner.item_eq_some.mpr rfl), if_pos rfl, ih]

/-- A value that is written as a name. -/
theorem spells_literal (c : Char) (cs : List Char) {v : Json} (text : isWs c = false)
    (reads : ∀ members elements, valueWith members elements c = do
      literal cs
      pure v) : Spells (c :: cs) v := by
  refine ⟨c, cs, rfl, text, fun members elements rest _ => ?_⟩
  rw [reads, Scanner.bind_of_some (literal_append cs rest)]
  rfl

theorem isWs_of_isDigit {c : Char} (digit : c.isDigit = true) : isWs c = false := by
  have ne (c' : Char) (other : c'.isDigit = false) : c ≠ c' := by
    rintro rfl
    rw [digit] at other
    cases other
  simp [isWs, ne ' ' rfl, ne '\t' rfl, ne '\n' rfl, ne '\r' rfl]

/-- The text of a number: a sign, the digits of the whole part, a fraction, an exponent. -/
theorem spells_number (negative : Bool) {d : Char} {ds : List Char} (frac : Option (List Char))
    (exp : Option (Bool × List Char)) (lead : d = '0' → ds = [])
    (whole : ∀ c ∈ d :: ds, c.isDigit = true)
    (fractional : ∀ f ∈ frac, f ≠ [] ∧ ∀ c ∈ f, c.isDigit = true)
    (scaled : ∀ e ∈ exp, e.2 ≠ [] ∧ ∀ c ∈ e.2, c.isDigit = true) :
    Spells ((if negative then ['-'] else []) ++ (d :: ds ++ (fractionText frac ++ exponentText exp)))
      (numberValue negative (d :: ds) frac exp) := by
  rw [List.forall_mem_cons] at whole
  have assoc (rest : List Char) : ds ++ (fractionText frac ++ exponentText exp) ++ rest =
      ds ++ (fractionText frac ++ (exponentText exp ++ rest)) := by
    rw [List.append_assoc, List.append_assoc]
  have read (rest : List Char) (ends : Ends rest) :
      number negative d (ds ++ (fractionText frac ++ exponentText exp) ++ rest) =
        some (numberValue negative (d :: ds) frac exp, rest) :=
    (congrArg (number negative d) (assoc rest)).trans
      (number_append negative lead whole.2 fractional scaled ends)
  cases negative with
  | false =>
      refine ⟨d, ds ++ (fractionText frac ++ exponentText exp), rfl, isWs_of_isDigit whole.1,
        fun members elements rest ends => ?_⟩
      rw [valueWith_digit members elements whole.1]
      exact read rest ends
  | true =>
      refine ⟨'-', d :: (ds ++ (fractionText frac ++ exponentText exp)), rfl, rfl,
        fun members elements rest ends => ?_⟩
      have sign : valueWith members elements '-' = Json.negative := rfl
      have ne : d ≠ 'I' := by
        rintro rfl
        exact absurd whole.1 (by decide)
      rw [sign, Json.negative, List.cons_append,
        Scanner.bind_of_some (Scanner.item_eq_some.mpr rfl), if_neg ne, if_pos whole.1]
      exact read rest ends

theorem ofDigits_eq (ds : List Char) : ofDigits ds = Nat.ofDigitChars 10 ds 0 := rfl

theorem ofDigits_toDigits (n : ℕ) : ofDigits (Nat.toDigits 10 n) = n :=
  Nat.ofDigitChars_ten_toDigits

theorem isDigit_of_mem {n : ℕ} : ∀ c ∈ Nat.toDigits 10 n, c.isDigit = true := fun _ mem =>
  Nat.isDigit_of_mem_toDigits (by decide) (by decide) mem

/-- The digits of a number have no zero in front, unless that is all there is. -/
theorem toDigits_lead (n : ℕ) : ∀ d ds, Nat.toDigits 10 n = d :: ds → d = '0' → ds = [] := by
  induction n using Nat.strong_induction_on with
  | _ n ih =>
      intro d ds same zero
      by_cases small : n < 10
      · rw [Nat.toDigits_of_lt_base small] at same
        exact (List.cons.inj same).2.symm
      · have large : 10 ≤ n := Nat.le_of_not_lt small
        obtain ⟨d', ds', front⟩ := List.exists_cons_of_ne_nil
          (Nat.toDigits_ne_nil (n := n / 10) (b := 10))
        rw [Nat.toDigits_of_base_le (by decide) large, front, List.cons_append] at same
        have zero' : d' = '0' := (List.cons.inj same).1.trans zero
        have nil := ih (n / 10) (by omega) d' ds' front zero'
        -- what is in front would spell zero
        have value := ofDigits_toDigits (n / 10)
        rw [front, zero', nil] at value
        have : n / 10 = 0 := value.symm
        omega

theorem spells_intText (n : ℤ) : Spells (intText n) (int n) := by
  obtain ⟨d, ds, same⟩ := List.exists_cons_of_ne_nil
    (Nat.toDigits_ne_nil (n := n.natAbs) (b := 10))
  have whole : ∀ c ∈ d :: ds, c.isDigit = true := by
    rw [← same]
    exact isDigit_of_mem
  have value : ofDigits (d :: ds) = n.natAbs := by rw [← same, ofDigits_toDigits]
  have spells (negative : Bool) := spells_number negative none none
    (toDigits_lead n.natAbs d ds same) whole (fun _ mem => by cases mem) (fun _ mem => by cases mem)
  simp only [fractionText, exponentText, List.append_nil, numberValue, value] at spells
  rw [intText, same]
  split
  · next neg =>
    have back : -(n.natAbs : ℤ) = n := by omega
    have read := spells true
    rw [if_pos rfl, if_pos rfl, back] at read
    exact read
  · next pos =>
    have back : (n.natAbs : ℤ) = n := by omega
    have read := spells false
    rw [if_neg Bool.false_ne_true, if_neg Bool.false_ne_true, back] at read
    exact read

/-! ### Floats -/

/-- The digits of a decimal are all of it. -/
theorem value_digitsOf {q : ℚ} (decimal : Decimal q) (nonneg : 0 ≤ q) :
    (ofDigits (digitsOf q) : ℚ) / 10 ^ places q = q := by
  rw [digitsOf, ofDigits_toDigits]
  obtain ⟨k, power⟩ := decimal
  have pos : 0 < q.den := q.den_pos
  have quotient : q.num.natAbs * 10 ^ places q / q.den = q.num.natAbs * k := by
    rw [power, Nat.mul_left_comm, Nat.mul_div_cancel_left _ pos]
  have num : ((q.num.natAbs : ℤ) : ℚ) = q.num := by
    rw [Int.natAbs_of_nonneg (Rat.num_nonneg.mpr nonneg)]
  have scale : ((10 : ℚ) ^ places q) = q.den * k := by exact_mod_cast power
  have k_ne : (k : ℚ) ≠ 0 := by
    intro zero
    rw [zero, mul_zero] at scale
    exact absurd scale (pow_ne_zero _ (by norm_num))
  rw [quotient, scale, Nat.cast_mul, mul_div_mul_right _ _ k_ne]
  rw [Int.cast_natCast] at num
  rw [num, Rat.num_div_den]

theorem ofDigits_append (ds es : List Char) :
    ofDigits (ds ++ es) = 10 ^ es.length * ofDigits ds + ofDigits es := by
  rw [ofDigits_eq, Nat.ofDigitChars_append, Nat.ofDigitChars_eq_ofDigitChars_zero]
  rfl

theorem ofDigits_replicate_zero (k : ℕ) : ofDigits (List.replicate k '0') = 0 := by
  rw [ofDigits_eq, Nat.ofDigitChars_replicate_zero, mul_zero]

theorem numberValue_fraction (negative : Bool) (whole f : List Char) :
    numberValue negative whole (some f) none = float (.finite
      (if negative then -((ofDigits (whole ++ f) : ℚ) / 10 ^ f.length)
        else (ofDigits (whole ++ f) : ℚ) / 10 ^ f.length)) := by
  have one : (10 : ℚ) ^ ofDigits [] = 1 := pow_zero 10
  simp only [numberValue, Option.map_none, Option.getD_none, Option.getD_some, one, mul_one,
    if_neg Bool.false_ne_true]

section Padded

variable (q : ℚ)

theorem length_padded : (padded q).length = max (places q + 1) (digitsOf q).length := by
  rw [padded, List.length_append, List.length_replicate]
  omega

theorem isDigit_of_mem_padded : ∀ c ∈ padded q, c.isDigit = true := by
  intro c mem
  rcases List.mem_append.mp mem with pad | own
  · rw [List.eq_of_mem_replicate pad]
    rfl
  · exact isDigit_of_mem c own

theorem ofDigits_padded : ofDigits (padded q) = ofDigits (digitsOf q) := by
  rw [padded, ofDigits_append, ofDigits_replicate_zero, mul_zero, zero_add]

/-- There is a zero in front of the digits before the point only when it is the only one of them. -/
theorem padded_lead {d : Char} {whole : List Char}
    (front : (padded q).take ((padded q).length - places q) = d :: whole) (zero : d = '0') :
    whole = [] := by
  have long := length_padded q
  by_cases pad : (digitsOf q).length ≤ places q
  · have one : (padded q).length - places q = 1 := by omega
    have counts := congrArg List.length front
    rw [one, List.length_take, List.length_cons] at counts
    exact List.eq_nil_of_length_eq_zero (by omega)
  · have own : padded q = digitsOf q := by
      rw [padded, Nat.sub_eq_zero_of_le (by omega), List.replicate_zero, List.nil_append]
    obtain ⟨d', ds', same⟩ := List.exists_cons_of_ne_nil
      (Nat.toDigits_ne_nil (n := q.num.natAbs * 10 ^ places q / q.den) (b := 10))
    have shape : padded q = d' :: ds' := own.trans same
    obtain ⟨k, some_left⟩ : ∃ k, (padded q).length - places q = k + 1 :=
      ⟨(padded q).length - places q - 1, by omega⟩
    rw [some_left, shape, List.take_succ_cons] at front
    have heads := List.cons.inj front
    rw [← heads.2, toDigits_lead _ d' ds' same (heads.1.trans zero), List.take_nil]

end Padded

/-- The digits after the point, of which there is at least one. -/
def pointDigits (q : ℚ) : List Char :=
  if places q = 0 then ['0'] else (padded q).drop ((padded q).length - places q)

theorem pointDigits_digits (q : ℚ) : pointDigits q ≠ [] ∧ ∀ c ∈ pointDigits q, c.isDigit = true := by
  have long := length_padded q
  rw [pointDigits]
  split
  · exact ⟨List.cons_ne_nil _ _, List.forall_mem_singleton.mpr rfl⟩
  · next some_places =>
    refine ⟨fun nil => ?_, fun c mem => isDigit_of_mem_padded q c (List.mem_of_mem_drop mem)⟩
    have counts := congrArg List.length nil
    rw [List.length_drop, List.length_nil] at counts
    omega

theorem value_positional {q : ℚ} (decimal : Decimal q) (nonneg : 0 ≤ q) :
    (ofDigits ((padded q).take ((padded q).length - places q) ++ pointDigits q) : ℚ) /
      10 ^ (pointDigits q).length = q := by
  have own := value_digitsOf decimal nonneg
  have long := length_padded q
  rw [pointDigits]
  split
  · next none_left =>
    have zero : ofDigits ['0'] = 0 := rfl
    rw [none_left, pow_zero, div_one] at own
    rw [none_left, Nat.sub_zero, List.take_length, ofDigits_append, ofDigits_padded, zero, add_zero,
      Nat.cast_mul, own, List.length_singleton]
    push_cast
    field_simp
  · have back : (padded q).length - ((padded q).length - places q) = places q := by omega
    rw [List.take_append_drop, ofDigits_padded, List.length_drop, back, own]

theorem spells_positional (negative : Bool) {q : ℚ} (decimal : Decimal q) (nonneg : 0 ≤ q) :
    Spells ((if negative then ['-'] else []) ++ positional q)
      (float (.finite (if negative then -q else q))) := by
  have long := length_padded q
  obtain ⟨d, whole, front⟩ :
      ∃ d whole, (padded q).take ((padded q).length - places q) = d :: whole := by
    refine List.exists_cons_of_ne_nil fun nil => ?_
    have counts := congrArg List.length nil
    rw [List.length_take, List.length_nil] at counts
    omega
  have text : positional q =
      (d :: whole) ++ (fractionText (some (pointDigits q)) ++ exponentText none) := by
    rw [← front, exponentText, List.append_nil]
    rfl
  have value := value_positional decimal nonneg
  rw [front] at value
  have read := spells_number negative (some (pointDigits q)) none
    (padded_lead q front)
    (by rw [← front]; exact fun c mem => isDigit_of_mem_padded q c (List.mem_of_mem_take mem))
    (fun f mem => by rw [← Option.some_inj.mp mem]; exact pointDigits_digits q)
    (fun _ mem => by cases mem)
  rw [numberValue_fraction, value] at read
  rw [text]
  exact read

theorem twoDigits_digits (n : ℕ) :
    twoDigits n ≠ [] ∧ (∀ c ∈ twoDigits n, c.isDigit = true) ∧ ofDigits (twoDigits n) = n := by
  rw [twoDigits]
  split
  · refine ⟨List.cons_ne_nil _ _, List.forall_mem_cons.mpr ⟨rfl, isDigit_of_mem⟩, ?_⟩
    exact ofDigits_toDigits n
  · exact ⟨Nat.toDigits_ne_nil, isDigit_of_mem, ofDigits_toDigits n⟩

/-- An exponent moves the point. -/
theorem numberValue_exponent (negative : Bool) (whole : List Char) (frac : Option (List Char)) (e : ℤ) :
    numberValue negative whole frac (some (decide (e < 0), twoDigits e.natAbs)) = float (.finite
      (if negative then
        -((ofDigits (whole ++ frac.getD []) : ℚ) / 10 ^ (frac.getD []).length * 10 ^ e)
      else (ofDigits (whole ++ frac.getD []) : ℚ) / 10 ^ (frac.getD []).length * 10 ^ e)) := by
  have scale (m : ℚ) : (if decide (e < 0) = true then m / 10 ^ e.natAbs else m * 10 ^ e.natAbs) =
      m * 10 ^ e := by
    by_cases neg : e < 0
    · have abs : e = -(e.natAbs : ℤ) := by omega
      rw [if_pos (decide_eq_true neg)]
      conv_rhs => rw [abs]
      rw [zpow_neg, zpow_natCast, div_eq_mul_inv]
    · have abs : e = (e.natAbs : ℤ) := by omega
      rw [if_neg (by simpa using neg)]
      conv_rhs => rw [abs]
      rw [zpow_natCast]
  rw [← scale]
  cases frac with
  | none | some f =>
      simp only [numberValue, Option.map_some, Option.getD_some, (twoDigits_digits e.natAbs).2.2]

/-- The zeros at the end of a number come off it. -/
theorem exists_zeros (ds : List Char) :
    ∃ k, ds = ds.rdropWhile (· = '0') ++ List.replicate k '0' := by
  refine ⟨(ds.rtakeWhile (· = '0')).length, ?_⟩
  have zeros : ds.rtakeWhile (· = '0') = List.replicate (ds.rtakeWhile (· = '0')).length '0' :=
    List.eq_replicate_iff.mpr ⟨rfl, fun c mem => by simpa using List.mem_rtakeWhile_imp mem⟩
  rw [← zeros, List.rdropWhile_append_rtakeWhile]

theorem spells_scientific (negative : Bool) {q : ℚ} (decimal : Decimal q) (nonneg : 0 ≤ q) :
    Spells ((if negative then ['-'] else []) ++ scientific q)
      (float (.finite (if negative then -q else q))) := by
  have own := value_digitsOf decimal nonneg
  obtain ⟨k, strip⟩ := exists_zeros (digitsOf q)
  have digits : ∀ c ∈ (digitsOf q).rdropWhile (· = '0'), c.isDigit = true := fun c mem =>
    isDigit_of_mem c ((List.rdropWhile_prefix _ _).subset mem)
  have total : ofDigits (digitsOf q) = 10 ^ k * ofDigits ((digitsOf q).rdropWhile (· = '0')) := by
    conv_lhs => rw [strip]
    rw [ofDigits_append, ofDigits_replicate_zero, List.length_replicate, add_zero]
  have count := congrArg List.length strip
  rw [List.length_append, List.length_replicate] at count
  rw [scientific]
  generalize (digitsOf q).rdropWhile (· = '0') = stripped at *
  cases stripped with
  | nil =>
      have zero : ofDigits ([] : List Char) = 0 := rfl
      rw [total, zero, mul_zero, Nat.cast_zero, zero_div] at own
      have zeroDigit : ∀ c ∈ ['0'], c.isDigit = true := List.forall_mem_singleton.mpr (by decide)
      have read := spells_number negative (some ['0']) none (fun _ => rfl)
        zeroDigit (fun f mem => by rw [← Option.some_inj.mp mem]; exact ⟨by decide, zeroDigit⟩)
        (fun _ mem => by cases mem)
      have value : ofDigits (['0'] ++ ['0']) = 0 := rfl
      rw [numberValue_fraction, value, Nat.cast_zero, zero_div, own] at read
      exact read
  | cons d ds =>
      set e := pointOf q - 1 with def_e
      -- the digits after the first one are the fraction, if there are any
      have value : (ofDigits (d :: ds) : ℚ) / 10 ^ ds.length * 10 ^ e = q := by
        have place : e = (ds.length : ℤ) + k - places q := by
          rw [def_e, pointOf, count, List.length_cons]
          push_cast
          ring
        rw [place, zpow_sub₀ (by norm_num), zpow_add₀ (by norm_num), zpow_natCast, zpow_natCast,
          zpow_natCast]
        conv_rhs => rw [← own, total]
        push_cast
        field_simp
      have scaled : ∀ x ∈ some (decide (e < 0), twoDigits e.natAbs), x.2 ≠ [] ∧
          ∀ c ∈ x.2, c.isDigit = true := fun x mem => by
        rw [← Option.some_inj.mp mem]
        exact ⟨(twoDigits_digits _).1, (twoDigits_digits _).2.1⟩
      rw [List.forall_mem_cons] at digits
      have sign : (if e < 0 then '-' else '+') = if decide (e < 0) = true then '-' else '+' := by
        simp only [decide_eq_true_eq]
      cases ds with
      | nil =>
          have read := spells_number negative none _ (fun _ => rfl)
            (List.forall_mem_singleton.mpr digits.1) (fun _ mem => by cases mem) scaled
          rw [numberValue_exponent, Option.getD_none, List.append_nil] at read
          rw [List.length_nil] at value
          rw [List.length_nil, value] at read
          show Spells (_ ++ (d :: 'e' :: (if e < 0 then '-' else '+') :: _)) _
          rw [sign]
          exact read
      | cons d' ds =>
          have read := spells_number negative (some (d' :: ds)) _
            (fun _ => rfl) (List.forall_mem_singleton.mpr digits.1)
            (fun f mem => by rw [← Option.some_inj.mp mem]; exact ⟨List.cons_ne_nil _ _, digits.2⟩)
            scaled
          have whole : [d] ++ d' :: ds = d :: d' :: ds := rfl
          rw [numberValue_exponent, Option.getD_some, whole, value] at read
          show Spells (_ ++ (d :: '.' :: (d' :: ds) ++ 'e' :: (if e < 0 then '-' else '+') :: _)) _
          rw [sign]
          simpa [fractionText, exponentText] using read

/-- A float is read back if it has finitely many digits. -/
theorem spells_fltText {x : Flt} (exact : ∀ q, x = .finite q → Decimal q) :
    Spells (fltText x) (float x) := by
  have finite (negative : Bool) {q : ℚ} (decimal : Decimal q) (nonneg : 0 ≤ q) :
      Spells ((if negative then ['-'] else []) ++ reprAbs q)
        (float (.finite (if negative then -q else q))) := by
    by_cases point : -4 < pointOf q ∧ pointOf q ≤ 16
    · rw [reprAbs, if_pos point]
      exact spells_positional negative decimal nonneg
    · rw [reprAbs, if_neg point]
      exact spells_scientific negative decimal nonneg
  cases x with
  | nan =>
      have name : fltText .nan = 'N' :: "aN".toList := rfl
      rw [name]
      exact spells_literal _ _ rfl fun _ _ => rfl
  | infinite negative =>
      cases negative with
      | false =>
          have name : fltText (.infinite false) = 'I' :: "nfinity".toList := rfl
          rw [name]
          exact spells_literal _ _ rfl fun _ _ => rfl
      | true =>
          have name : fltText (.infinite true) = '-' :: 'I' :: "nfinity".toList := rfl
          rw [name]
          refine ⟨'-', 'I' :: "nfinity".toList, rfl, rfl, fun members elements rest _ => ?_⟩
          have sign : valueWith members elements '-' = Json.negative := rfl
          rw [sign, Json.negative, List.cons_append,
            Scanner.bind_of_some (Scanner.item_eq_some.mpr rfl), if_pos rfl,
            Scanner.bind_of_some (literal_append _ rest)]
          rfl
  | finite q =>
      have decimal := exact q rfl
      have signed : fltText (.finite q) = if q < 0 then '-' :: reprAbs (-q) else reprAbs q := rfl
      rw [signed]
      by_cases neg : q < 0
      · have opposite : Decimal (-q) := by
          rw [Decimal, places, Rat.neg_den]
          exact decimal
        have read := finite true opposite (neg_nonneg.mpr neg.le)
        rw [if_pos rfl, if_pos rfl, neg_neg] at read
        rw [if_pos neg]
        exact read
      · rw [if_neg neg]
        exact finite false decimal (not_lt.mp neg)

/-! ### Values are read back -/

theorem skipWs_blank {ws : List Char} (blank : ∀ c ∈ ws, isWs c = true) {c : Char}
    (text : isWs c = false) (s : List Char) : skipWs (ws ++ c :: s) = some ((), c :: s) := by
  have read : many isWs (ws ++ c :: s) = some (ws, c :: s) := by
    rw [Scanner.many_eq_some, List.takeWhile_append_of_pos blank, List.dropWhile_append_of_pos blank,
      List.takeWhile_cons_of_neg (by simp [text]), List.dropWhile_cons_of_neg (by simp [text]),
      List.append_nil]
    exact ⟨rfl, rfl⟩
  rw [skipWs, Scanner.bind_of_some read]
  rfl

theorem skipWs_text {c : Char} (text : isWs c = false) (s : List Char) :
    skipWs (c :: s) = some ((), c :: s) :=
  skipWs_blank (fun _ mem => absurd mem List.not_mem_nil) text s

theorem skipWs_space {c : Char} (text : isWs c = false) (s : List Char) :
    skipWs (' ' :: c :: s) = some ((), c :: s) :=
  skipWs_blank (List.forall_mem_singleton.mpr rfl) text s

/-- A value in print is read back with fuel enough for its text. -/
def Reads (v : Json) : Prop :=
  ∀ n, (dumps v).length ≤ n → ∃ c s, dumps v = c :: s ∧ isWs c = false ∧ ∀ rest, Ends rest →
    valueWith (members false n) (elements false n) c (s ++ rest) = some (v, rest)

theorem Spells.reads {v : Json} (spells : Spells (dumps v) v) : Reads v := by
  intro n enough
  obtain ⟨c, s, same, text, read⟩ := spells
  exact ⟨c, s, same, text, read _ _⟩

/-- The items of an array are read back, up to its bracket. -/
theorem elements_dumps {items : List Json} : ∀ {v : Json}, (∀ w ∈ v :: items, Reads w) →
    ∀ {n : ℕ} rest, (dumps v).length + (dumpsItems items).length < n →
    ∃ c s, dumps v ++ (dumpsItems items ++ ']' :: rest) = c :: s ∧ isWs c = false ∧
      elements false n c s = some (v :: items, rest) := by
  induction items with
  | nil =>
      intro v reads n rest enough
      obtain ⟨m, rfl⟩ : ∃ m, n = m + 1 := ⟨n - 1, by omega⟩
      obtain ⟨c, s, same, text, read⟩ := reads v List.mem_cons_self m (by omega)
      refine ⟨c, s ++ ']' :: rest, by rw [same]; rfl, text, ?_⟩
      rw [elements, Scanner.bind_of_some (read _ (Or.inr ⟨']', rest, rfl, by decide⟩)),
        Scanner.bind_of_some (skipWs_text (by decide) rest),
        Scanner.bind_of_some (Scanner.item_eq_some.mpr rfl), if_pos rfl]
      rfl
  | cons w items ih =>
      intro v reads n rest enough
      simp only [dumpsItems, List.cons_append, List.length_append, List.length_cons] at enough
      obtain ⟨m, rfl⟩ : ∃ m, n = m + 1 := ⟨n - 1, by omega⟩
      obtain ⟨c, s, same, text, read⟩ := reads v List.mem_cons_self m (by omega)
      obtain ⟨c', s', same', text', read'⟩ := ih (v := w) (n := m)
        (fun w' mem => reads w' (List.mem_cons_of_mem v mem)) rest (by omega)
      have after : dumpsItems (w :: items) ++ ']' :: rest = ',' :: ' ' :: c' :: s' := by
        rw [← same', dumpsItems]
        simp only [List.append_assoc, List.cons_append]
      refine ⟨c, s ++ ',' :: ' ' :: c' :: s', by rw [same, after]; rfl, text, ?_⟩
      rw [elements, Scanner.bind_of_some (read _ (Or.inr ⟨',', _, rfl, by decide⟩)),
        Scanner.bind_of_some (skipWs_text (by decide) _),
        Scanner.bind_of_some (Scanner.item_eq_some.mpr rfl), if_neg (by decide), if_pos rfl,
        Scanner.bind_of_some (skipWs_space text' s'),
        Scanner.bind_of_some (Scanner.item_eq_some.mpr rfl), Scanner.bind_of_some read']
      rfl

/-- The fields of an object are read back, up to its brace. -/
theorem members_dumps {fields : Fields} : ∀ {key : String} {v : Json},
    (∀ field ∈ (key, v) :: fields, Reads field.2) → ∀ {n : ℕ} rest,
    (quotedText key).length + (dumps v).length + (dumpsFields fields).length < n →
    members false n '"' (quotedText key ++ (':' :: ' ' :: (dumps v ++
      (dumpsFields fields ++ '}' :: rest)))) = some ((key, v) :: fields, rest) := by
  induction fields with
  | nil =>
      intro key v reads n rest enough
      obtain ⟨m, rfl⟩ : ∃ m, n = m + 1 := ⟨n - 1, by omega⟩
      have own : Reads v := reads (key, v) List.mem_cons_self
      obtain ⟨c, s, same, text, read⟩ := own m (by omega)
      have value := read _ (Or.inr ⟨'}', rest, rfl, by decide⟩)
      rw [same, dumpsFields, List.nil_append, members, if_pos rfl, Bool.not_false,
        Scanner.bind_of_some (string_quotedText key _), Scanner.bind_of_some (skipWs_text (by decide) _),
        Scanner.bind_of_some (Scanner.item_eq_some.mpr rfl), if_pos rfl, List.cons_append,
        Scanner.bind_of_some (skipWs_space text _),
        Scanner.bind_of_some (Scanner.item_eq_some.mpr rfl), Scanner.bind_of_some value,
        Scanner.bind_of_some (skipWs_text (by decide) rest),
        Scanner.bind_of_some (Scanner.item_eq_some.mpr rfl), if_pos rfl]
      rfl
  | cons field fields ih =>
      obtain ⟨key', v'⟩ := field
      intro key v reads n rest enough
      simp only [dumpsFields, List.cons_append, List.length_append, List.length_cons] at enough
      obtain ⟨m, rfl⟩ : ∃ m, n = m + 1 := ⟨n - 1, by omega⟩
      have own : Reads v := reads (key, v) List.mem_cons_self
      obtain ⟨c, s, same, text, read⟩ := own m (by omega)
      have more := ih (v := v') (n := m)
        (fun field mem => reads field (List.mem_cons_of_mem _ mem)) rest (by omega)
      have after : dumpsFields ((key', v') :: fields) ++ '}' :: rest =
          ',' :: ' ' :: '"' :: (quotedText key' ++ (':' :: ' ' :: (dumps v' ++
            (dumpsFields fields ++ '}' :: rest)))) := by
        rw [dumpsFields]
        simp only [List.append_assoc, List.cons_append]
      have value := read _ (Or.inr ⟨',', _, after, by decide⟩)
      rw [after] at value
      rw [after, same, members, if_pos rfl, Bool.not_false,
        Scanner.bind_of_some (string_quotedText key _), Scanner.bind_of_some (skipWs_text (by decide) _),
        Scanner.bind_of_some (Scanner.item_eq_some.mpr rfl), if_pos rfl, List.cons_append,
        Scanner.bind_of_some (skipWs_space text _),
        Scanner.bind_of_some (Scanner.item_eq_some.mpr rfl), Scanner.bind_of_some value,
        Scanner.bind_of_some (skipWs_text (by decide) _),
        Scanner.bind_of_some (Scanner.item_eq_some.mpr rfl), if_neg (by decide), if_pos rfl,
        Scanner.bind_of_some (skipWs_space (by decide) _),
        Scanner.bind_of_some (Scanner.item_eq_some.mpr rfl), Scanner.bind_of_some more]
      rfl

/-! ### Every value -/

/-- The pairs of distinct keys are their own mapping. -/
theorem ofPairs_of_nodup {pairs : Fields} (distinct : (pairs.map Prod.fst).Nodup) :
    ofPairs pairs = pairs := by
  have fold (pairs : Fields) : ∀ done : Fields, ((done ++ pairs).map Prod.fst).Nodup →
      pairs.foldl (fun fields pair => fields.set pair.1 pair.2) done = done ++ pairs := by
    induction pairs with
    | nil => intro done _; exact (List.append_nil done).symm
    | cons pair pairs ih =>
        intro done distinct
        have fresh : done.set pair.1 pair.2 = done ++ [pair] := by
          have absent : ∀ field ∈ done, field.1 ≠ pair.1 := by
            rw [List.map_append, List.nodup_append] at distinct
            exact fun field mem => distinct.2.2 field.1 (List.mem_map_of_mem mem) pair.1
              List.mem_cons_self
          clear distinct
          induction done with
          | nil => rfl
          | cons field done more =>
              rw [Fields.set, if_neg (absent field List.mem_cons_self), List.cons_append,
                more fun field mem => absent field (List.mem_cons_of_mem _ mem)]
        rw [List.foldl_cons, fresh, ih (done ++ [pair]) (by simpa using distinct)]
        simp
  exact fold pairs [] distinct

theorem reads_arr {v : Json} {items : List Json} (reads : ∀ w ∈ v :: items, Reads w) :
    Reads (arr (v :: items)) := by
  intro n enough
  simp only [dumps, List.cons_append, List.length_append, List.length_cons, List.length_nil] at enough
  refine ⟨'[', dumps v ++ (dumpsItems items ++ [']']), ?_, rfl, fun rest _ => ?_⟩
  · simp only [dumps, List.append_assoc, List.cons_append]
  · obtain ⟨c, s, same, text, read⟩ := elements_dumps reads (n := n) rest (by omega)
    have bracket : c ≠ ']' := by
      rintro rfl
      obtain ⟨c', s', same', -, read'⟩ := reads v List.mem_cons_self _ (Nat.le_refl _)
      rw [same'] at same
      have := read' [] (Or.inl rfl)
      rw [(List.cons.inj same).1] at this
      cases this
    simp only [List.append_assoc, List.cons_append, List.nil_append, same]
    show (skipWs >>= _) _ = _
    rw [Scanner.bind_of_some (skipWs_text text s), Scanner.bind_of_some (Scanner.item_eq_some.mpr rfl),
      if_neg bracket, Scanner.bind_of_some read]
    rfl

theorem reads_obj {key : String} {v : Json} {fields : Fields}
    (distinct : (((key, v) :: fields).map Prod.fst).Nodup)
    (reads : ∀ field ∈ (key, v) :: fields, Reads field.2) : Reads (obj ((key, v) :: fields)) := by
  intro n enough
  simp only [dumps, List.cons_append, List.length_append, List.length_cons, List.length_nil] at enough
  refine ⟨'{', '"' :: (quotedText key ++ (':' :: ' ' :: (dumps v ++ (dumpsFields fields ++
    ['}'])))), ?_, rfl, fun rest _ => ?_⟩
  · simp only [dumps, List.append_assoc, List.cons_append]
  · have read := members_dumps reads (n := n) rest (by omega)
    show (skipWs >>= _) _ = _
    simp only [List.append_assoc, List.cons_append, List.nil_append]
    rw [Scanner.bind_of_some (skipWs_text (by decide) _),
      Scanner.bind_of_some (Scanner.item_eq_some.mpr rfl), if_neg (by decide),
      Scanner.bind_of_some read, ofPairs_of_nodup distinct]
    rfl

mutual

/-- A value in print is read back. -/
theorem reads_of_exact : ∀ {v : Json}, Exact v → Reads v
  | null, _ => Spells.reads (spells_literal 'n' "ull".toList rfl fun _ _ => rfl)
  | bool true, _ => Spells.reads (spells_literal 't' "rue".toList rfl fun _ _ => rfl)
  | bool false, _ => Spells.reads (spells_literal 'f' "alse".toList rfl fun _ _ => rfl)
  | int n, _ => Spells.reads (spells_intText n)
  | float x, exact => Spells.reads (spells_fltText fun q same => by
      rw [same] at exact
      exact exact)
  | str s, _ => by
      refine Spells.reads ⟨'"', quotedText s, by rw [dumps], rfl, ?_⟩
      intro members elements rest _
      show (string true >>= _) _ = _
      rw [Scanner.bind_of_some (string_quotedText s rest)]
      rfl
  | arr [], _ => Spells.reads ⟨'[', [']'], by rw [dumps], rfl, fun _ _ _ _ => rfl⟩
  | arr (_ :: _), exact => reads_arr (readsItems_of_exact exact)
  | obj [], _ => Spells.reads ⟨'{', ['}'], by rw [dumps], rfl, fun _ _ _ _ => rfl⟩
  | obj ((_, _) :: _), exact => reads_obj exact.1 (readsFields_of_exact exact.2)

theorem readsItems_of_exact : ∀ {items : List Json}, ExactItems items → ∀ w ∈ items, Reads w
  | [], _ => fun _ mem => absurd mem List.not_mem_nil
  | _ :: _, exact => List.forall_mem_cons.mpr
      ⟨reads_of_exact exact.1, readsItems_of_exact exact.2⟩

theorem readsFields_of_exact : ∀ {fields : List (String × Json)}, ExactFields fields →
    ∀ field ∈ fields, Reads field.2
  | [], _ => fun _ mem => absurd mem List.not_mem_nil
  | (_, _) :: _, exact => List.forall_mem_cons.mpr
      ⟨reads_of_exact exact.1, readsFields_of_exact exact.2⟩

end

/-- What is printed is read back, and what follows is left. -/
theorem rawDecode_dumps {v : Json} (exact : Exact v) {rest : List Char} (ends : Ends rest) :
    rawDecode (dumps v ++ rest) = some (v, rest) := by
  obtain ⟨c, s, same, -, read⟩ := reads_of_exact exact (dumps v ++ rest).length
    (by rw [List.length_append]; exact Nat.le_add_right _ _)
  rw [rawDecode, value]
  generalize (dumps v ++ rest).length = n at read
  rw [same, List.cons_append, Scanner.bind_of_some (Scanner.item_eq_some.mpr rfl), read rest ends]

/-- `json.loads` takes what `json.dumps` gives. -/
theorem loads_dumps {v : Json} (exact : Exact v) : loads false (dumps v) = some v := by
  obtain ⟨c, s, same, text, read⟩ := reads_of_exact exact _ (Nat.le_refl _)
  have mark : (dumps v).head? ≠ some '\uFEFF' := by
    rw [same]
    rintro ⟨⟩
    exact absurd (read [] (Or.inl rfl)) (by intro none; cases none)
  have trimmed : (dumps v).dropWhile isWs = dumps v := by
    rw [same, List.dropWhile_cons_of_neg (by simp [text])]
  have whole : value false (dumps v).length (dumps v) = some (v, []) := by
    have decoded := rawDecode_dumps exact (Or.inl rfl : Ends [])
    rwa [List.append_nil] at decoded
  rw [loads, if_neg mark]
  simp only [trimmed, whole, List.all_nil, if_true]

end Json
