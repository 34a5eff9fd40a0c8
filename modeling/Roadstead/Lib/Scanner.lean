import Mathlib.Data.List.Infix
import Mathlib.Data.List.TakeWhile

/-!
# Scanners

A scanner reads a value off the front of a text and leaves the rest, or fails.  A recursive
scanner takes fuel, so what is studied is a family `F : ℕ → Scanner α`.

`Stable j k F n` says of `F n`, for each text it reads a value from, three things: it took a
beginning of the text; the beginning has at least `j` characters; and the same value is read
off the beginning followed by any shorter rest, with any fuel that is at least the length of
the beginning less `k`.  In particular a value that is read off a text is read off the part
it took, alone (`Stable.alone`).  `Stable.bind` composes such facts and keeps account of `j` and `k`;
`Stable.succ` closes an induction on the fuel.

The other direction is about longer texts.  `Extends P F n` says that what `F n` reads off a text
it reads off every longer one, with any fuel that is not less, when `P` holds of the rest that it
left.  A scanner that looks for its end in what follows, as one for the digits of a number does,
needs such a `P`; one that reads up to a closing mark needs none.  `Extends.bind` composes them:
what the second scanner can read says that the rest of the first is one that `P` allows.
-/

/-- Read a value off the front of a text. -/
def Scanner (α : Type) : Type := List Char → Option (α × List Char)

namespace Scanner

variable {α β : Type}

instance : Monad Scanner where
  pure a := fun s => some (a, s)
  bind F G := fun s => (F s).bind fun found => G found.1 found.2

/-- Read nothing. -/
def fail : Scanner α := fun _ => none

/-- Read one character. -/
def item : Scanner Char
  | [] => none
  | c :: s => some (c, s)

/-- Read the characters that satisfy `p`. -/
def many (p : Char → Bool) : Scanner (List Char) := fun s => some (s.takeWhile p, s.dropWhile p)

/-- Read this text. -/
def literal : List Char → Scanner Unit
  | [] => pure ()
  | c :: cs => do
      let c' ← item
      if c' = c then literal cs else fail

theorem pure_eq_some {a b : α} {s r : List Char} :
    (pure a : Scanner α) s = some (b, r) ↔ a = b ∧ s = r := by
  change some (a, s) = some (b, r) ↔ _
  simp

theorem bind_eq_some {F : Scanner α} {G : α → Scanner β} {s r : List Char} {b : β} :
    (F >>= G) s = some (b, r) ↔ ∃ a s', F s = some (a, s') ∧ G a s' = some (b, r) := by
  change (F s).bind _ = _ ↔ _
  simp [Option.bind_eq_some_iff]

theorem bind_of_some {F : Scanner α} {G : α → Scanner β} {s s' : List Char} {a : α}
    (read : F s = some (a, s')) : (F >>= G) s = G a s' := by
  change (F s).bind _ = _
  rw [read]
  rfl

@[simp] theorem fail_apply (s : List Char) : (fail : Scanner α) s = none := rfl

theorem item_eq_some {s r : List Char} {c : Char} : item s = some (c, r) ↔ s = c :: r := by
  cases s <;> simp [item]

theorem many_eq_some {p : Char → Bool} {s r cs : List Char} :
    many p s = some (cs, r) ↔ s.takeWhile p = cs ∧ s.dropWhile p = r := by
  simp [many]

/-! ### Stability -/

/-- `F n` reads at least `j` characters, and what it reads depends on those alone. -/
def Stable (j k : ℕ) (F : ℕ → Scanner α) (n : ℕ) : Prop :=
  ∀ s a r, F n s = some (a, r) → ∃ front, s = front ++ r ∧ j ≤ front.length ∧
    ∀ m rest, front.length ≤ m + k → rest <+: r → F m (front ++ rest) = some (a, rest)

variable {G : ℕ → α → Scanner β}

namespace Stable

variable {j k n : ℕ} {F : ℕ → Scanner α}

/-- What was read off a text is read off the part that was taken. -/
theorem alone (stable : Stable j k F n) {s r : List Char} {a : α} (read : F n s = some (a, r)) :
    ∃ front, s = front ++ r ∧ F front.length front = some (a, []) := by
  obtain ⟨front, cut, -, again⟩ := stable s a r read
  refine ⟨front, cut, ?_⟩
  have := again front.length [] (by omega) (List.nil_prefix)
  rwa [List.append_nil] at this

/-- The rest is an end of the text. -/
theorem suffix (stable : Stable j k F n) {s r : List Char} {a : α} (read : F n s = some (a, r)) :
    r <:+ s := by
  obtain ⟨front, cut, -, -⟩ := stable s a r read
  exact ⟨front, cut.symm⟩

theorem weaken (stable : Stable j k F n) {j' k' : ℕ} (less : j' ≤ j) (less' : k' ≤ k) :
    Stable j' k' F n := by
  intro s a r read
  obtain ⟨front, cut, long, again⟩ := stable s a r read
  exact ⟨front, cut, by omega, fun m rest enough => again m rest (by omega)⟩

theorem pure (a : α) (k : ℕ) : Stable 0 k (fun _ => (pure a : Scanner α)) n := by
  intro s b r read
  obtain ⟨rfl, rfl⟩ := pure_eq_some.mp read
  exact ⟨[], rfl, Nat.le_refl _, fun _ _ _ _ => rfl⟩

theorem fail (j k : ℕ) : Stable j k (fun _ => (Scanner.fail : Scanner α)) n := by
  intro s a r read
  cases read

theorem item (k : ℕ) : Stable 1 k (fun _ => Scanner.item) n := by
  intro s c r read
  obtain rfl := item_eq_some.mp read
  exact ⟨[c], rfl, Nat.le_refl _, fun _ _ _ _ => rfl⟩

/-- What follows the characters that were taken does not begin with one more. -/
theorem many (p : Char → Bool) (k : ℕ) : Stable 0 k (fun _ => Scanner.many p) n := by
  intro s cs r read
  obtain ⟨rfl, rfl⟩ := many_eq_some.mp read
  refine ⟨s.takeWhile p, (List.takeWhile_append_dropWhile).symm, Nat.zero_le _, ?_⟩
  rintro m rest - short
  have all : ∀ c ∈ s.takeWhile p, p c = true := fun c mem => List.mem_takeWhile_imp mem
  have ended : rest.takeWhile p = [] ∧ rest.dropWhile p = rest := by
    cases rest with
    | nil => exact ⟨rfl, rfl⟩
    | cons c rest =>
        obtain ⟨more, same⟩ := short
        have stops : ¬ p c = true := by
          have head := List.head?_dropWhile_not p s
          rw [← same] at head
          simpa using head
        simp [stops]
  rw [many_eq_some, List.takeWhile_append_of_pos all, List.dropWhile_append_of_pos all, ended.1,
    ended.2, List.append_nil]
  exact ⟨rfl, rfl⟩

theorem bind {j' k' K : ℕ} (first : Stable j k F n)
    (second : ∀ a, Stable j' k' (fun m => G m a) n) (fits : K ≤ k + j') (fits' : K ≤ k' + j) :
    Stable (j + j') K (fun m => F m >>= G m) n := by
  intro s b r read
  obtain ⟨a, s', one, two⟩ := bind_eq_some.mp read
  obtain ⟨front, rfl, long, again⟩ := first s a s' one
  obtain ⟨front', rfl, long', again'⟩ := second a s' b r two
  refine ⟨front ++ front', (List.append_assoc _ _ _).symm, by simp; omega, ?_⟩
  intro m rest enough short
  rw [List.length_append] at enough
  have read_first := again m (front' ++ rest) (by omega)
    ((List.prefix_append_right_inj front').mpr short)
  rw [List.append_assoc]
  exact (bind_of_some read_first).trans (again' m rest (by omega) short)

/-- Composition that keeps no account of lengths. -/
theorem andThen (first : Stable 0 k F n)
    (second : ∀ a, Stable 0 k (fun m => G m a) n) : Stable 0 k (fun m => F m >>= G m) n :=
  first.bind second (Nat.le_refl k) (Nat.le_refl k)

/-- What a scanner without fuel reads first is fuel to spare for the second. -/
theorem after {A : Scanner α} {i : ℕ}
    (first : ∀ k, Stable i k (fun _ => A) n) (second : ∀ a, Stable j k (fun m => G m a) n) :
    Stable (i + j) (k + i) (fun m => A >>= G m) n :=
  (first (k + i)).bind second (by omega) (Nat.le_refl _)

/-- A choice that the text does not enter into. -/
theorem ite {G : ℕ → Scanner α} {c : Prop} [Decidable c] (pos : c → Stable j k F n)
    (neg : ¬ c → Stable j k G n) : Stable j k (fun m => if c then F m else G m) n := by
  by_cases h : c
  · simpa [h] using pos h
  · simpa [h] using neg h

theorem literal (cs : List Char) (k : ℕ) : Stable 0 k (fun _ => Scanner.literal cs) n := by
  induction cs with
  | nil => exact pure () k
  | cons c cs ih =>
      have : Stable (1 + 0) k (fun _ => Scanner.literal (c :: cs)) n :=
        (item k).bind (fun c' => ite (fun _ => ih) fun _ => fail 0 k) (by omega) (by omega)
      exact this.weaken (by omega) (Nat.le_refl _)

/-- A scanner that spends one unit of fuel, and reads a character for it. -/
theorem succ {H : ℕ → Scanner α} (spends : ∀ m, F (m + 1) = H m)
    (stable : Stable 1 1 H n) : Stable 1 0 F (n + 1) := by
  intro s a r read
  rw [spends] at read
  obtain ⟨front, cut, long, again⟩ := stable s a r read
  refine ⟨front, cut, long, fun m rest enough short => ?_⟩
  obtain ⟨m, rfl⟩ : ∃ m', m = m' + 1 := ⟨m - 1, by omega⟩
  rw [spends]
  exact again m rest enough short

end Stable

/-! ### Longer texts -/

/-- What `F n` reads off a text and leaves a rest that `P` allows, it reads off longer texts. -/
def Extends (P : List Char → Prop) (F : ℕ → Scanner α) (n : ℕ) : Prop :=
  ∀ s a r, F n s = some (a, r) → P r → ∀ m more, n ≤ m → F m (s ++ more) = some (a, r ++ more)

/-- Any rest. -/
def Anything (_ : List Char) : Prop := True

/-- A rest that is not empty. -/
def Remains (r : List Char) : Prop := r ≠ []

namespace Extends

variable {n : ℕ} {F : ℕ → Scanner α} {P Q : List Char → Prop}

theorem weaken (longer : Extends P F n) (less : ∀ r, Q r → P r) : Extends Q F n :=
  fun s a r read allowed => longer s a r read (less r allowed)

theorem always (longer : Extends Anything F n) : Extends Q F n :=
  longer.weaken fun _ _ => trivial

theorem pure (a : α) : Extends Anything (fun _ => (pure a : Scanner α)) n := by
  intro s b r read _ m more _
  obtain ⟨rfl, rfl⟩ := pure_eq_some.mp read
  rfl

theorem fail : Extends Anything (fun _ => (Scanner.fail : Scanner α)) n := by
  intro s a r read
  cases read

theorem item : Extends Anything (fun _ => Scanner.item) n := by
  intro s c r read _ m more _
  obtain rfl := item_eq_some.mp read
  rfl

/-- The characters that were taken end where the rest begins. -/
theorem many (p : Char → Bool) : Extends Remains (fun _ => Scanner.many p) n := by
  intro s cs r read left m more _
  obtain ⟨rfl, rfl⟩ := many_eq_some.mp read
  have stops : ¬ ∀ c ∈ s, p c = true := fun all => left (List.dropWhile_eq_nil_iff.mpr all)
  rw [many_eq_some]
  constructor
  · rw [List.takeWhile_append, if_neg]
    intro whole
    exact stops (List.takeWhile_eq_self_iff.mp ((List.takeWhile_prefix p).eq_of_length whole))
  · rw [List.dropWhile_append, if_neg]
    exact fun none_left => left (List.isEmpty_iff.mp none_left)

theorem bind (first : Extends P F n) (second : ∀ a, Extends Q (fun m => G m a) n)
    (follows : ∀ a s b r, G n a s = some (b, r) → Q r → P s) :
    Extends Q (fun m => F m >>= G m) n := by
  intro s b r read allowed m more enough
  obtain ⟨a, s', one, two⟩ := bind_eq_some.mp read
  have read_first := first s a s' one (follows a s' b r two allowed) m more enough
  exact (bind_of_some read_first).trans (second a s' b r two allowed m more enough)

/-- After a scanner that needs nothing of its rest. -/
theorem andThen (first : Extends Anything F n)
    (second : ∀ a, Extends Q (fun m => G m a) n) : Extends Q (fun m => F m >>= G m) n :=
  first.bind second fun _ _ _ _ _ _ => trivial

theorem ite {G : ℕ → Scanner α} {c : Prop} [Decidable c] (pos : c → Extends P F n)
    (neg : ¬ c → Extends P G n) : Extends P (fun m => if c then F m else G m) n := by
  by_cases h : c
  · simpa [h] using pos h
  · simpa [h] using neg h

theorem literal (cs : List Char) : Extends Anything (fun _ => Scanner.literal cs) n := by
  induction cs with
  | nil => exact pure ()
  | cons c cs ih => exact item.andThen fun c' => ite (fun _ => ih) fun _ => fail

/-- A scanner that spends one unit of fuel. -/
theorem succ {H : ℕ → Scanner α} (spends : ∀ m, F (m + 1) = H m) (longer : Extends P H n) :
    Extends P F (n + 1) := by
  intro s a r read allowed m more enough
  rw [spends] at read
  obtain ⟨m, rfl⟩ : ∃ m', m = m' + 1 := ⟨m - 1, by omega⟩
  rw [spends]
  exact longer s a r read allowed m more (by omega)

end Extends

/-- A scanner that takes a character first reads no empty text. -/
theorem remains_of_item {G : Char → Scanner β} {s r : List Char} {b : β}
    (read : (item >>= G) s = some (b, r)) : Remains s := by
  rintro rfl
  cases read

end Scanner
