import Roadstead.Lib.Json
import Roadstead.Lib.Scanner

/-!
# Reading JSON

The decoder of Python's `json` module on texts: `rawDecode` reads a value at the front of a
text and leaves the rest, `loads` reads a text that is a value and white space.  As in Python,
`NaN` and the infinities are values, a field that is written twice has its last value, and
control characters do not stand in strings.  A surrogate that is not one of a pair becomes
U+FFFD.  The interpreter's limits on nesting and on the digits of an integer are left out.

`rawDecode_alone`: what is read off a text is read off the part that was taken, alone.

The decoder has a strict form, `plain`, for texts that write no key with an escape:
`loads_plain` says that it reads the same, and `infix_of_mentions` that a key of what it reads
stands in the text between quotes.
-/

namespace Json

open Scanner (item many literal fail)

/-! ### White space and numbers -/

/-- White space between tokens. -/
def isWs (c : Char) : Bool := c = ' ' || c = '\t' || c = '\n' || c = '\r'

def skipWs : Scanner Unit := do
  let _ ← many isWs
  pure ()

/-- The digits of a number: one, and more. -/
def digits : Scanner (List Char) := do
  let d ← item
  if d.isDigit then
    let ds ← many Char.isDigit
    pure (d :: ds)
  else fail

/-- What a scanner reads, if it reads anything. -/
def maybe {α : Type} (F : Scanner α) : Scanner (Option α) := fun s =>
  match F s with
  | some (a, r) => some (some a, r)
  | none => some (none, s)

def fraction : Scanner (List Char) := do
  let c ← item
  if c = '.' then digits else fail

/-- An exponent: whether it is negative, and its digits. -/
def exponent : Scanner (Bool × List Char) := do
  let e ← item
  if e = 'e' ∨ e = 'E' then
    let c ← item
    if c = '-' ∨ c = '+' then
      let ds ← digits
      pure (decide (c = '-'), ds)
    else if c.isDigit then
      let ds ← many Char.isDigit
      pure (false, c :: ds)
    else fail
  else fail

/-- The number that digits spell. -/
def ofDigits (ds : List Char) : ℕ := ds.foldl (fun n d => 10 * n + (d.toNat - '0'.toNat)) 0

/-- The value of a number: an integer when it has neither fraction nor exponent. -/
def numberValue (negative : Bool) (whole : List Char) (frac : Option (List Char))
    (exp : Option (Bool × List Char)) : Json :=
  let sign (q : ℚ) : ℚ := if negative then -q else q
  match frac, exp with
  | none, none => .int (if negative then -(ofDigits whole : ℤ) else ofDigits whole)
  | _, _ =>
      let ds := frac.getD []
      let mantissa : ℚ := ofDigits (whole ++ ds) / (10 : ℚ) ^ ds.length
      let scale : ℚ := (10 : ℚ) ^ ofDigits ((exp.map Prod.snd).getD [])
      .float (.finite (sign (if (exp.map Prod.fst).getD false then mantissa / scale
        else mantissa * scale)))

/-- The digits of a whole part after its first one, `d`; there are none after a zero. -/
def wholeRest (d : Char) : Scanner (List Char) :=
  if d = '0' then pure [] else many Char.isDigit

/-- A number whose first digit is `d`. -/
def number (negative : Bool) (d : Char) : Scanner Json := do
  let ds ← wholeRest d
  let frac ← maybe fraction
  let exp ← maybe exponent
  pure (numberValue negative (d :: ds) frac exp)

/-! ### Strings -/

/-- The value of a hexadecimal digit. -/
def hexValue? (c : Char) : Option ℕ :=
  if c.isDigit then some (c.toNat - '0'.toNat)
  else if 'a' ≤ c ∧ c ≤ 'f' then some (c.toNat - 'a'.toNat + 10)
  else if 'A' ≤ c ∧ c ≤ 'F' then some (c.toNat - 'A'.toNat + 10)
  else none

/-- What a character after a backslash stands for. -/
def escape? (c : Char) : Option ℕ :=
  match c with
  | '"' => some 34
  | '\\' => some 92
  | '/' => some 47
  | 'b' => some 8
  | 'f' => some 12
  | 'n' => some 10
  | 'r' => some 13
  | 't' => some 9
  | _ => none

/-- Where a string is: in its text, after a backslash, or before the last `left + 1` of the four
digits of an escape. -/
inductive StringMode where
  | text
  | escape
  | hex (left acc : ℕ)

/-- The code points of a string whose opening quote has been read, and the text after its
closing quote.  Without `escapes` a backslash is an error. -/
def units (escapes : Bool) : StringMode → List Char → Option (List ℕ × List Char)
  | _, [] => none
  | .text, c :: s =>
      if c = '"' then some ([], s)
      else if c = '\\' then if escapes then units escapes .escape s else none
      else if c.toNat < 32 then none
      else (units escapes .text s).map fun found => (c.toNat :: found.1, found.2)
  | .escape, c :: s =>
      if c = 'u' then units escapes (.hex 3 0) s
      else (escape? c).bind fun u => (units escapes .text s).map fun found => (u :: found.1, found.2)
  | .hex left acc, c :: s =>
      (hexValue? c).bind fun h =>
        match left with
        | 0 => (units escapes .text s).map fun found => ((acc * 16 + h) :: found.1, found.2)
        | left + 1 => units escapes (.hex left (acc * 16 + h)) s

/-- The character of a code point; U+FFFD for a surrogate. -/
def charOf (u : ℕ) : Char := if u.isValidChar then Char.ofNat u else '\uFFFD'

/-- The characters of code points, the pairs of surrogates joined. -/
def joinSurrogates : List ℕ → List Char
  | high :: low :: us =>
      if 0xd800 ≤ high ∧ high ≤ 0xdbff ∧ 0xdc00 ≤ low ∧ low ≤ 0xdfff then
        charOf (0x10000 + (high - 0xd800) * 1024 + (low - 0xdc00)) :: joinSurrogates us
      else charOf high :: joinSurrogates (low :: us)
  | [u] => [charOf u]
  | [] => []

/-- A string whose opening quote has been read. -/
def string (escapes : Bool) : Scanner String := do
  let us ← (units escapes .text : Scanner (List ℕ))
  pure (String.ofList (joinSurrogates us))

/-! ### Values -/

/-- The mapping of the pairs that an object lists. -/
def ofPairs (pairs : Fields) : Fields :=
  pairs.foldl (fun fields pair => fields.set pair.1 pair.2) []

/-- `-Infinity`, or a negative number. -/
def negative : Scanner Json := do
  let d ← item
  if d = 'I' then
    literal "nfinity".toList
    pure (.float (.infinite true))
  else if d.isDigit then number true d
  else fail

/-- A value whose first character is `c`; `members` and `elements` read what an object or an
array lists, from its first character on. -/
def valueWith (members : Char → Scanner Fields) (elements : Char → Scanner (List Json)) (c : Char) :
    Scanner Json :=
  if c = '"' then do
    let text ← string true
    pure (.str text)
  else if c = '{' then do
    skipWs
    let c ← item
    if c = '}' then pure (.obj []) else
      let pairs ← members c
      pure (.obj (ofPairs pairs))
  else if c = '[' then do
    skipWs
    let c ← item
    if c = ']' then pure (.arr []) else
      let items ← elements c
      pure (.arr items)
  else if c = 'n' then do
    literal "ull".toList
    pure .null
  else if c = 't' then do
    literal "rue".toList
    pure (.bool true)
  else if c = 'f' then do
    literal "alse".toList
    pure (.bool false)
  else if c = 'N' then do
    literal "aN".toList
    pure (.float .nan)
  else if c = 'I' then do
    literal "nfinity".toList
    pure (.float (.infinite false))
  else if c = '-' then negative
  else if c.isDigit then number false c
  else fail

mutual

/-- The fields of an object, from the first character on. -/
def members (plain : Bool) : ℕ → Char → Scanner Fields
  | 0, _ => fail
  | n + 1, c =>
      if c = '"' then do
        let key ← string (!plain)
        skipWs
        let c ← item
        if c = ':' then
          skipWs
          let c ← item
          let value ← valueWith (members plain n) (elements plain n) c
          skipWs
          let c ← item
          if c = '}' then pure [(key, value)]
          else if c = ',' then
            skipWs
            let c ← item
            let rest ← members plain n c
            pure ((key, value) :: rest)
          else fail
        else fail
      else fail

/-- The items of an array, from the first character on. -/
def elements (plain : Bool) : ℕ → Char → Scanner (List Json)
  | 0, _ => fail
  | n + 1, c => do
      let value ← valueWith (members plain n) (elements plain n) c
      skipWs
      let c ← item
      if c = ']' then pure [value]
      else if c = ',' then
        skipWs
        let c ← item
        let rest ← elements plain n c
        pure (value :: rest)
      else fail

end

/-- A value. -/
def value (plain : Bool) (n : ℕ) : Scanner Json := do
  let c ← item
  valueWith (members plain n) (elements plain n) c

/-- `JSONDecoder().raw_decode`: the value at the front, and the rest. -/
def rawDecode (s : List Char) : Option (Json × List Char) := value false s.length s

/-- `json.loads`; with `plain`, no key may be written with an escape. -/
def loads (plain : Bool) (s : List Char) : Option Json :=
  if s.head? = some '\uFEFF' then none
  else
    let text := s.dropWhile isWs
    match value plain text.length text with
    | some (v, rest) => if rest.all isWs then some v else none
    | none => none

/-! ### What is read does not depend on what follows -/

open Scanner (Stable bind_eq_some bind_of_some pure_eq_some item_eq_some)

section Stability

variable {n : ℕ}

theorem stable_skipWs (k : ℕ) : Stable 0 k (fun _ => skipWs) n :=
  (Stable.many isWs k).bind (fun _ => Stable.pure () k) (by omega) (by omega)

theorem stable_digits (k : ℕ) : Stable 1 k (fun _ => digits) n :=
  (Stable.item k).bind
    (fun d => Stable.ite
      (fun _ => (Stable.many Char.isDigit k).andThen fun ds => Stable.pure (d :: ds) k)
      fun _ => Stable.fail 0 k)
    (Nat.le_refl k) (by omega)

theorem stable_fraction (k : ℕ) : Stable 0 k (fun _ => fraction) n :=
  ((Stable.item k).weaken (by omega) (Nat.le_refl k)).andThen fun _ =>
    Stable.ite (fun _ => (stable_digits k).weaken (by omega) (Nat.le_refl k)) fun _ => Stable.fail 0 k

theorem stable_exponent (k : ℕ) : Stable 0 k (fun _ => exponent) n := by
  have character : Stable 0 k (fun _ => item) n :=
    (Stable.item k).weaken (by omega) (Nat.le_refl k)
  have signed : ∀ c : Char, Stable 0 k (fun _ => do
      let ds ← digits
      (pure (decide (c = '-'), ds) : Scanner (Bool × List Char))) n := fun c =>
    ((stable_digits k).weaken (by omega) (Nat.le_refl k)).andThen fun ds =>
      Stable.pure (decide (c = '-'), ds) k
  have unsigned : ∀ c : Char, Stable 0 k (fun _ => do
      let ds ← many Char.isDigit
      (pure (false, c :: ds) : Scanner (Bool × List Char))) n := fun c =>
    (Stable.many Char.isDigit k).andThen fun ds => Stable.pure (false, c :: ds) k
  exact character.andThen fun _ =>
    Stable.ite
      (fun _ => character.andThen fun c =>
        Stable.ite (fun _ => signed c) fun _ =>
          Stable.ite (fun _ => unsigned c) fun _ => Stable.fail 0 k)
      fun _ => Stable.fail 0 k

theorem maybe_of_some {α : Type} {F : Scanner α} {s r : List Char} {a : α} (read : F s = some (a, r)) :
    maybe F s = some (some a, r) := by
  simp only [maybe, read]

theorem maybe_of_none {α : Type} {F : Scanner α} {s : List Char} (absent : F s = none) :
    maybe F s = some (none, s) := by
  simp only [maybe, absent]

/-- An optional part is not read off a shorter text when it is not read off the longer. -/
theorem stable_maybe {α : Type} {F : Scanner α} {k : ℕ} (stable : Stable 0 k (fun _ => F) n)
    (grows : ∀ s rest, rest <+: s → (F rest).isSome → (F s).isSome) :
    Stable 0 k (fun _ => maybe F) n := by
  intro s a r read
  cases here : F s with
  | some found =>
      obtain ⟨b, r'⟩ := found
      cases (maybe_of_some here).symm.trans read
      obtain ⟨front, cut, long, again⟩ := stable s b r here
      exact ⟨front, cut, long, fun m rest enough short => maybe_of_some (again m rest enough short)⟩
  | none =>
      cases (maybe_of_none here).symm.trans read
      refine ⟨[], rfl, Nat.le_refl _, fun m rest _ short => maybe_of_none ?_⟩
      by_contra some_read
      have := grows _ rest short (Option.isSome_iff_ne_none.mpr some_read)
      simp [here] at this

theorem digits_isSome {s : List Char} :
    (digits s).isSome ↔ ∃ d s', s = d :: s' ∧ d.isDigit = true := by
  cases s with
  | nil => simp [digits, bind, item]
  | cons d s =>
      by_cases digit : d.isDigit = true <;> simp [digits, bind, item, digit, many, pure]

theorem fraction_isSome {s : List Char} :
    (fraction s).isSome ↔ ∃ d s', s = '.' :: d :: s' ∧ d.isDigit = true := by
  cases s with
  | nil => simp [fraction, bind, item]
  | cons c s =>
      by_cases point : c = '.'
      · subst point
        have := @digits_isSome s
        simpa [fraction, bind, item] using this
      · simp [fraction, bind, item, point]

theorem exponent_isSome {s : List Char} :
    (exponent s).isSome ↔ ∃ e c s', s = e :: c :: s' ∧ (e = 'e' ∨ e = 'E') ∧
      (c.isDigit = true ∨ (c = '-' ∨ c = '+') ∧ (digits s').isSome) := by
  cases s with
  | nil => simp [exponent, bind, item]
  | cons e s =>
      by_cases mark : e = 'e' ∨ e = 'E'
      · cases s with
        | nil => simp [exponent, bind, item, mark]
        | cons c s =>
            by_cases sign : c = '-' ∨ c = '+'
            · have not_digit : c.isDigit = false := by rcases sign with rfl | rfl <;> rfl
              cases read : digits s <;>
                simp [exponent, bind, item, mark, sign, not_digit, read, pure]
            · by_cases digit : c.isDigit = true <;>
                simp [exponent, bind, item, mark, sign, digit, many, pure]
      · simp [exponent, bind, item, mark]

theorem digits_grow {s rest : List Char} (short : rest <+: s) (read : (digits rest).isSome) :
    (digits s).isSome := by
  obtain ⟨more, rfl⟩ := short
  obtain ⟨d, s', rfl, digit⟩ := digits_isSome.mp read
  exact digits_isSome.mpr ⟨d, s' ++ more, rfl, digit⟩

theorem stable_number (neg : Bool) (d : Char) (k : ℕ) : Stable 0 k (fun _ => number neg d) n := by
  have fraction_grows : ∀ s rest, rest <+: s → (fraction rest).isSome → (fraction s).isSome := by
    rintro s rest ⟨more, rfl⟩ read
    obtain ⟨d, s', rfl, digit⟩ := fraction_isSome.mp read
    exact fraction_isSome.mpr ⟨d, s' ++ more, rfl, digit⟩
  have exponent_grows : ∀ s rest, rest <+: s → (exponent rest).isSome → (exponent s).isSome := by
    rintro s rest ⟨more, rfl⟩ read
    obtain ⟨e, c, s', rfl, mark, digit⟩ := exponent_isSome.mp read
    refine exponent_isSome.mpr ⟨e, c, s' ++ more, rfl, mark, digit.imp_right ?_⟩
    exact fun ⟨sign, some_digits⟩ => ⟨sign, digits_grow (List.prefix_append s' more) some_digits⟩
  have whole : Stable 0 k (fun _ => wholeRest d) n :=
    Stable.ite (fun _ => Stable.pure [] k) fun _ => Stable.many Char.isDigit k
  exact whole.andThen fun ds =>
    (stable_maybe (stable_fraction k) fraction_grows).andThen fun frac =>
      (stable_maybe (stable_exponent k) exponent_grows).andThen fun exp =>
        Stable.pure (numberValue neg (d :: ds) frac exp) k

/-- A string is read up to its closing quote, and what follows is not looked at. -/
theorem units_front {escapes : Bool} {s r : List Char} {us : List ℕ} {mode : StringMode}
    (read : units escapes mode s = some (us, r)) :
    ∃ front, s = front ++ r ∧ 1 ≤ front.length ∧
      ∀ rest, units escapes mode (front ++ rest) = some (us, rest) := by
  induction s generalizing mode us with
  | nil => cases mode <;> cases read
  | cons c s ih =>
      cases mode with
      | text =>
          simp only [units] at read
          split_ifs at read with quote backslash allowed control
          · cases read
            exact ⟨[c], rfl, Nat.le_refl _, fun rest => by simp [units, quote]⟩
          · subst allowed
            obtain ⟨front, rfl, -, again⟩ := ih read
            refine ⟨c :: front, rfl, by simp, fun rest => ?_⟩
            simp [units, backslash, again rest]
          · obtain ⟨⟨us', r'⟩, rest_read, same⟩ := Option.map_eq_some_iff.mp read
            cases same
            obtain ⟨front, rfl, -, again⟩ := ih rest_read
            refine ⟨c :: front, rfl, by simp, fun rest => ?_⟩
            simp [units, quote, backslash, control, again rest]
      | escape =>
          simp only [units] at read
          split_ifs at read with hexadecimal
          · obtain ⟨front, rfl, -, again⟩ := ih read
            refine ⟨c :: front, rfl, by simp, fun rest => ?_⟩
            simp [units, hexadecimal, again rest]
          · obtain ⟨u, meaning, mapped⟩ := Option.bind_eq_some_iff.mp read
            obtain ⟨⟨us', r'⟩, rest_read, same⟩ := Option.map_eq_some_iff.mp mapped
            cases same
            obtain ⟨front, rfl, -, again⟩ := ih rest_read
            refine ⟨c :: front, rfl, by simp, fun rest => ?_⟩
            simp [units, hexadecimal, meaning, again rest]
      | hex left acc =>
          simp only [units] at read
          obtain ⟨h, meaning, after⟩ := Option.bind_eq_some_iff.mp read
          cases left with
          | zero =>
              obtain ⟨⟨us', r'⟩, rest_read, same⟩ := Option.map_eq_some_iff.mp after
              cases same
              obtain ⟨front, rfl, -, again⟩ := ih rest_read
              refine ⟨c :: front, rfl, by simp, fun rest => ?_⟩
              simp [units, meaning, again rest]
          | succ left =>
              obtain ⟨front, rfl, -, again⟩ := ih after
              refine ⟨c :: front, rfl, by simp, fun rest => ?_⟩
              simp [units, meaning, again rest]

theorem stable_string (escapes : Bool) (k : ℕ) : Stable 1 k (fun _ => string escapes) n := by
  have stable : Stable 1 k (fun _ => (units escapes .text : Scanner (List ℕ))) n := by
    intro s us r read
    obtain ⟨front, cut, long, again⟩ := units_front read
    exact ⟨front, cut, long, fun _ rest _ _ => again rest⟩
  exact stable.bind (fun us => Stable.pure (String.ofList (joinSurrogates us)) k) (Nat.le_refl k)
    (by omega)

theorem stable_negative (k : ℕ) : Stable 0 k (fun _ => negative) n :=
  ((Stable.item k).weaken (by omega) (Nat.le_refl k)).andThen fun d =>
    Stable.ite
      (fun _ => (Stable.literal _ k).andThen fun _ => Stable.pure _ k)
      fun _ => Stable.ite (fun _ => stable_number true d k) fun _ => Stable.fail 0 k

/-- A value is stable when what it lists is. -/
theorem stable_valueWith {members : ℕ → Char → Scanner Fields} {elements : ℕ → Char → Scanner (List Json)}
    (fields : ∀ c, Stable 0 0 (fun m => members m c) n)
    (items : ∀ c, Stable 0 0 (fun m => elements m c) n) (c : Char) :
    Stable 0 0 (fun m => valueWith (members m) (elements m) c) n := by
  have character : Stable 0 0 (fun _ => item) n :=
    (Stable.item 0).weaken (by omega) (Nat.le_refl 0)
  have word (text : List Char) (v : Json) : Stable 0 0 (fun _ => do
      literal text
      (pure v : Scanner Json)) n := (Stable.literal text 0).andThen fun _ => Stable.pure v 0
  unfold valueWith
  refine Stable.ite (fun _ => ?_) fun _ => Stable.ite (fun _ => ?_) fun _ =>
    Stable.ite (fun _ => ?_) fun _ => Stable.ite (fun _ => word _ _) fun _ =>
    Stable.ite (fun _ => word _ _) fun _ => Stable.ite (fun _ => word _ _) fun _ =>
    Stable.ite (fun _ => word _ _) fun _ => Stable.ite (fun _ => word _ _) fun _ =>
    Stable.ite (fun _ => stable_negative 0) fun _ =>
    Stable.ite (fun _ => stable_number false c 0) fun _ => Stable.fail 0 0
  · exact ((stable_string true 0).weaken (by omega) (Nat.le_refl 0)).andThen fun text =>
      Stable.pure (Json.str text) 0
  · exact (stable_skipWs 0).andThen fun _ => character.andThen fun c =>
      Stable.ite (fun _ => Stable.pure (Json.obj []) 0) fun _ =>
        (fields c).andThen fun pairs => Stable.pure (Json.obj (ofPairs pairs)) 0
  · exact (stable_skipWs 0).andThen fun _ => character.andThen fun c =>
      Stable.ite (fun _ => Stable.pure (Json.arr []) 0) fun _ =>
        (items c).andThen fun items => Stable.pure (Json.arr items) 0

/-- After a value of a list: the end of the list, or a comma and the rest. -/
theorem stable_tail {α : Type} {lists : ℕ → Char → Scanner (List α)}
    (rest : ∀ c, Stable 1 0 (fun m => lists m c) n) (close : Char) (a : α) :
    Stable 1 1 (fun m => do
      skipWs
      let c ← item
      if c = close then pure [a]
      else if c = ',' then
        skipWs
        let c ← item
        let rest ← lists m c
        pure (a :: rest)
      else fail) n := by
  have more : Stable 2 1 (fun m => do
      skipWs
      let c ← item
      let rest ← lists m c
      pure (a :: rest)) n :=
    Stable.after stable_skipWs fun _ => Stable.after Stable.item fun c =>
      (rest c).bind (fun rest => Stable.pure (a :: rest) 0) (Nat.le_refl 0) (by omega)
  have closed : Stable 1 2 (fun m => do
      let c ← item
      if c = close then pure [a]
      else if c = ',' then
        skipWs
        let c ← item
        let rest ← lists m c
        pure (a :: rest)
      else fail) n :=
    Stable.after Stable.item fun _ => Stable.ite (fun _ => Stable.pure [a] 1) fun _ =>
      Stable.ite (fun _ => more.weaken (by omega) (Nat.le_refl 1)) fun _ => Stable.fail 0 1
  exact (Stable.after stable_skipWs fun _ => closed).weaken (by omega) (by omega)

/-- What `members` and `elements` read is stable; the induction is on the fuel. -/
theorem stable_lists (plain : Bool) (n : ℕ) :
    (∀ c, Stable 1 0 (fun m => members plain m c) n) ∧
      ∀ c, Stable 1 0 (fun m => elements plain m c) n := by
  induction n with
  | zero =>
      constructor <;>
      · intro c s a r read
        cases read
  | succ n ih =>
      obtain ⟨fields, items⟩ := ih
      have one : ∀ c, Stable 0 0 (fun m => valueWith (members plain m) (elements plain m) c) n :=
        stable_valueWith (fun c => (fields c).weaken (by omega) (Nat.le_refl 0))
          fun c => (items c).weaken (by omega) (Nat.le_refl 0)
      constructor
      · intro c
        refine Stable.succ (fun m => by rw [members]) (Stable.ite (fun _ => ?_) fun _ => Stable.fail 1 1)
        have field (key : String) : Stable 1 1 (fun m => do
            skipWs
            let c ← item
            if c = ':' then
              skipWs
              let c ← item
              let value ← valueWith (members plain m) (elements plain m) c
              skipWs
              let c ← item
              if c = '}' then pure [(key, value)]
              else if c = ',' then
                skipWs
                let c ← item
                let rest ← members plain m c
                pure ((key, value) :: rest)
              else fail
            else fail) n :=
          (Stable.after stable_skipWs fun _ => Stable.after Stable.item fun _ => Stable.ite
            (fun _ => Stable.after stable_skipWs fun _ => Stable.after Stable.item fun c =>
              (one c).bind (fun value => stable_tail fields '}' (key, value)) (Nat.le_refl 1)
                (Nat.le_refl 1))
            fun _ => Stable.fail 2 2).weaken (by omega) (by omega)
        exact (Stable.after (stable_string (!plain)) field).weaken (by omega) (by omega)
      · intro c
        refine Stable.succ (fun m => by rw [elements]) ?_
        exact (one c).bind (fun value => stable_tail items ']' value) (Nat.le_refl 1) (Nat.le_refl 1)

theorem stable_value (plain : Bool) (n : ℕ) : Stable 1 0 (value plain) n :=
  (Stable.after Stable.item fun c =>
    stable_valueWith (fun c => ((stable_lists plain n).1 c).weaken (by omega) (Nat.le_refl 0))
      (fun c => ((stable_lists plain n).2 c).weaken (by omega) (Nat.le_refl 0)) c).weaken
    (Nat.le_refl 1) (by omega)

end Stability

/-- What is read off a text is read off the part that was taken, alone. -/
theorem rawDecode_alone {s r : List Char} {v : Json} (read : rawDecode s = some (v, r)) :
    ∃ front, s = front ++ r ∧ rawDecode front = some (v, []) :=
  (stable_value false s.length).alone read

/-- What is read begins with a character that is neither white space nor a byte order mark. -/
theorem rawDecode_head {s r : List Char} {v : Json} (read : rawDecode s = some (v, r)) :
    ∃ c s', s = c :: s' ∧ isWs c = false ∧ c ≠ '\uFEFF' := by
  cases s with
  | nil => cases read
  | cons c s =>
      have first : valueWith (members false (c :: s).length) (elements false (c :: s).length) c s =
          some (v, r) := read
      have starts : ∀ c', valueWith (members false (c :: s).length) (elements false (c :: s).length) c' =
          (fail : Scanner Json) → c ≠ c' := by
        rintro c' failed rfl
        rw [failed] at first
        cases first
      refine ⟨c, s, rfl, ?_, starts _ rfl⟩
      simp only [isWs, Bool.or_eq_false_iff, decide_eq_false_iff_not]
      exact ⟨⟨⟨starts _ rfl, starts _ rfl⟩, starts _ rfl⟩, starts _ rfl⟩

/-- A value and white space after it are a text. -/
theorem loads_of_rawDecode {s r : List Char} {v : Json} (read : rawDecode s = some (v, r))
    (blank : r.all isWs = true) : loads false s = some v := by
  obtain ⟨c, s', rfl, isText, no_mark⟩ := rawDecode_head read
  have whole : (c :: s').dropWhile isWs = c :: s' := by
    rw [List.dropWhile_cons, isText]
    rfl
  have unmarked : ¬ (c :: s').head? = some '\uFEFF' := by simpa using no_mark
  rw [rawDecode] at read
  simp only [loads, if_neg unmarked, whole, read, blank, if_true]

end Json
