import Mathlib.Data.Bool.AllAny
import Roadstead.Lib.Json.Scan

/-!
# Reading a text that grows

Whoever decodes a text as it arrives asks each time whether it begins with a value.  Two facts
say what a yes is worth.

* `isSome_rawDecode_append`: it stays a yes, whatever arrives later.
* `rawDecode_append`: an object, an array or a string stays the same value.

A number is the reason for the difference: its end is where the next character is no part of it,
so what has been read of it may be a part.  Inside an object or an array this does no harm, since
there a number is followed by a character of the `Follows` set.
-/

namespace Json

open Scanner (item many literal fail Extends Anything Remains bind_eq_some bind_of_some pure_eq_some
  item_eq_some remains_of_item)

/-- A value that ends with a mark of its own. -/
def isClosed : Json → Bool
  | .obj _ | .arr _ | .str _ => true
  | _ => false

/-- The rest of a number begins with a character that is no part of a number. -/
def Follows (r : List Char) : Prop :=
  ∃ c r', r = c :: r' ∧ c.isDigit = false ∧ c ≠ '.' ∧ c ≠ 'e' ∧ c ≠ 'E'

theorem Follows.remains {r : List Char} (follows : Follows r) : Remains r := by
  obtain ⟨c, r', rfl, -⟩ := follows
  exact List.cons_ne_nil c r'

theorem follows_cons {c : Char} (r : List Char)
    (mark : isWs c = true ∨ c = ',' ∨ c = ']' ∨ c = '}') : Follows (c :: r) := by
  refine ⟨c, r, rfl, ?_⟩
  have one_of : c = ' ' ∨ c = '\t' ∨ c = '\n' ∨ c = '\r' ∨ c = ',' ∨ c = ']' ∨ c = '}' := by
    simpa only [isWs, Bool.or_eq_true, decide_eq_true_eq, or_assoc] using mark
  rcases one_of with rfl | rfl | rfl | rfl | rfl | rfl | rfl <;> decide

section Numbers

variable {n : ℕ}

theorem extends_digits : Extends Remains (fun _ => digits) n :=
  Extends.item.andThen fun d => Extends.ite
    (fun _ => (Extends.many Char.isDigit).bind (fun ds => (Extends.pure (d :: ds)).always) (by
      intro ds s b r read left
      obtain ⟨-, rfl⟩ := pure_eq_some.mp read
      exact left))
    fun _ => Extends.fail.always

theorem extends_fraction : Extends Remains (fun _ => fraction) n :=
  Extends.item.andThen fun _ => Extends.ite (fun _ => extends_digits) fun _ => Extends.fail.always

theorem extends_exponent : Extends Remains (fun _ => exponent) n := by
  have signed (c : Char) : Extends Remains (fun _ => do
      let ds ← digits
      (pure (decide (c = '-'), ds) : Scanner (Bool × List Char))) n := by
    refine extends_digits.bind (fun ds => (Extends.pure _).always) fun ds s b r read left => ?_
    obtain ⟨-, rfl⟩ := pure_eq_some.mp read
    exact left
  have unsigned (c : Char) : Extends Remains (fun _ => do
      let ds ← many Char.isDigit
      (pure (false, c :: ds) : Scanner (Bool × List Char))) n := by
    refine (Extends.many _).bind (fun ds => (Extends.pure _).always) fun ds s b r read left => ?_
    obtain ⟨-, rfl⟩ := pure_eq_some.mp read
    exact left
  exact Extends.item.andThen fun _ => Extends.ite
    (fun _ => Extends.item.andThen fun c => Extends.ite (fun _ => signed c) fun _ =>
      Extends.ite (fun _ => unsigned c) fun _ => Extends.fail.always)
    fun _ => Extends.fail.always

/-- An optional part: when it is absent, the rest says that it stays so. -/
theorem extends_maybe {α : Type} {F : Scanner α} {P : List Char → Prop}
    (longer : Extends P (fun _ => F) n)
    (absent : ∀ s more, F s = none → P s → F (s ++ more) = none) :
    Extends P (fun _ => maybe F) n := by
  intro s a r read allowed m more enough
  cases here : F s with
  | some found =>
      obtain ⟨b, r'⟩ := found
      cases (maybe_of_some here).symm.trans read
      exact maybe_of_some (longer s b r here allowed m more enough)
  | none =>
      cases (maybe_of_none here).symm.trans read
      exact maybe_of_none (absent s more here allowed)

/-- A fraction is there only where a point is. -/
theorem fraction_eq_none {c : Char} (s : List Char) (ne : c ≠ '.') : fraction (c :: s) = none := by
  by_contra read
  obtain ⟨d, s', same, -⟩ := fraction_isSome.mp (Option.isSome_iff_ne_none.mpr read)
  exact ne (List.cons.inj same).1

/-- An exponent is there only where its mark is. -/
theorem exponent_eq_none {c : Char} (s : List Char) (ne : c ≠ 'e') (ne' : c ≠ 'E') :
    exponent (c :: s) = none := by
  by_contra read
  obtain ⟨e, c', s', same, mark, -⟩ := exponent_isSome.mp (Option.isSome_iff_ne_none.mpr read)
  obtain ⟨rfl, -⟩ := List.cons.inj same
  exact mark.elim ne ne'

theorem extends_number (neg : Bool) (d : Char) : Extends Follows (fun _ => number neg d) n := by
  have exp : Extends Follows (fun _ => maybe exponent) n := by
    refine extends_maybe (extends_exponent.weaken fun _ => Follows.remains) ?_
    rintro _ more - ⟨c, r, rfl, -, -, ne, ne'⟩
    exact exponent_eq_none _ ne ne'
  -- what an exponent or its absence leaves to a fraction
  let NoPoint (s : List Char) : Prop := ∃ c s', s = c :: s' ∧ c ≠ '.'
  have frac : Extends NoPoint (fun _ => maybe fraction) n := by
    refine extends_maybe (extends_fraction.weaken ?_) ?_
    · rintro _ ⟨c, s, rfl, -⟩
      exact List.cons_ne_nil c s
    · rintro _ more - ⟨c, s, rfl, ne⟩
      exact fraction_eq_none _ ne
  have no_point : ∀ (ds : List Char) (f : Option (List Char)) s b r,
      (do let exp ← maybe exponent
          (pure (numberValue neg (d :: ds) f exp) : Scanner Json)) s = some (b, r) →
        Follows r → NoPoint s := by
    intro ds f s b r read follows
    obtain ⟨e, s', one, two⟩ := bind_eq_some.mp read
    obtain ⟨-, rfl⟩ := pure_eq_some.mp two
    cases there : exponent s with
    | some found =>
        obtain ⟨c, c', s₁, rfl, mark, -⟩ := exponent_isSome.mp (by rw [there]; rfl)
        refine ⟨c, c' :: s₁, rfl, ?_⟩
        rcases mark with rfl | rfl <;> decide
    | none =>
        cases (maybe_of_none there).symm.trans one
        obtain ⟨c, r, rfl, -, ne, -⟩ := follows
        exact ⟨c, r, rfl, ne⟩
  have rest (ds : List Char) : Extends Follows (fun _ => do
      let f ← maybe fraction
      let exp ← maybe exponent
      (pure (numberValue neg (d :: ds) f exp) : Scanner Json)) n := by
    refine frac.bind (fun f => exp.bind (fun e => (Extends.pure _).always) ?_) (no_point ds)
    intro e s b r read follows
    obtain ⟨-, rfl⟩ := pure_eq_some.mp read
    exact follows
  have whole : Extends Remains (fun _ => wholeRest d) n :=
    Extends.ite (fun _ => (Extends.pure []).always) fun _ => Extends.many Char.isDigit
  refine whole.bind rest ?_
  intro ds s b r read follows
  obtain ⟨f, s', one, two⟩ := bind_eq_some.mp read
  obtain ⟨c, s'', rfl, -⟩ := no_point ds f s' b r two follows
  cases there : fraction s with
  | some found =>
      obtain ⟨d', s₁, rfl, -⟩ := fraction_isSome.mp (by rw [there]; rfl)
      exact List.cons_ne_nil _ _
  | none =>
      cases (maybe_of_none there).symm.trans one
      exact List.cons_ne_nil _ _

/-- A number is read whatever comes after its first digit. -/
theorem number_isSome (neg : Bool) (d : Char) (s : List Char) : (number neg d s).isSome = true := by
  have always {α : Type} (F : Scanner α) (s : List Char) : ∃ a r, maybe F s = some (a, r) := by
    cases here : F s with
    | some found => exact ⟨_, _, maybe_of_some here⟩
    | none => exact ⟨_, _, maybe_of_none here⟩
  obtain ⟨ds, s₁, whole⟩ : ∃ ds r, wholeRest d s = some (ds, r) := by
    unfold wholeRest
    split
    · exact ⟨[], s, rfl⟩
    · exact ⟨_, _, rfl⟩
  obtain ⟨f, s₂, frac⟩ := always fraction s₁
  obtain ⟨e, s₃, exp⟩ := always exponent s₂
  have read : number neg d s = some (numberValue neg (d :: ds) f e, s₃) :=
    (bind_of_some whole).trans ((bind_of_some frac).trans (bind_of_some exp))
  rw [read]
  rfl

/-- A number is no closed value. -/
theorem number_not_closed {neg : Bool} {d : Char} {s r : List Char} {v : Json}
    (read : number neg d s = some (v, r)) : v.isClosed = false := by
  obtain ⟨ds, s₁, -, rest⟩ := bind_eq_some.mp read
  obtain ⟨f, s₂, -, rest⟩ := bind_eq_some.mp rest
  obtain ⟨e, s₃, -, rest⟩ := bind_eq_some.mp rest
  obtain ⟨rfl, -⟩ := pure_eq_some.mp rest
  cases f <;> cases e <;> rfl

end Numbers

/-! ### Values -/

theorem extends_skipWs {n : ℕ} : Extends Remains (fun _ => skipWs) n :=
  (Extends.many isWs).bind (fun _ => (Extends.pure ()).always) (by
    intro ws s b r read left
    obtain ⟨-, rfl⟩ := pure_eq_some.mp read
    exact left)

theorem extends_string {n : ℕ} (escapes : Bool) : Extends Anything (fun _ => string escapes) n := by
  have read_units : Extends Anything (fun _ => (units escapes .text : Scanner (List ℕ))) n := by
    intro s us r read _ m more _
    obtain ⟨front, rfl, -, again⟩ := units_front read
    rw [List.append_assoc]
    exact again (r ++ more)
  exact read_units.andThen fun us => Extends.pure _

/-- White space, and a scanner that takes a character first. -/
theorem extends_token {α : Type} {n : ℕ} {P : List Char → Prop} {G : ℕ → Char → Scanner α}
    (next : ∀ c, Extends P (fun m => G m c) n) :
    Extends P (fun m => do
      skipWs
      let c ← item
      G m c) n :=
  extends_skipWs.bind (fun _ => Extends.item.andThen next)
    fun _ _ _ _ read _ => remains_of_item read

/-- The characters that a value other than a number begins with, and the sign. -/
def marks : List Char := ['"', '{', '[', 'n', 't', 'f', 'N', 'I', '-']

theorem valueWith_of_not_mark (members : Char → Scanner Fields)
    (elements : Char → Scanner (List Json)) {c : Char} (no_mark : c ∉ marks) :
    valueWith members elements c = if c.isDigit then number false c else fail := by
  simp only [marks, List.mem_cons, List.not_mem_nil, or_false, not_or] at no_mark
  obtain ⟨quote, brace, bracket, n, t, f, upper_n, upper_i, sign⟩ := no_mark
  unfold valueWith
  rw [if_neg quote, if_neg brace, if_neg bracket, if_neg n, if_neg t, if_neg f, if_neg upper_n,
    if_neg upper_i, if_neg sign]

/-- A value whose first character is a digit is a number. -/
theorem valueWith_digit (members : Char → Scanner Fields) (elements : Char → Scanner (List Json))
    {c : Char} (digit : c.isDigit = true) : valueWith members elements c = number false c := by
  have no_digits : ∀ c ∈ marks, c.isDigit = false := List.all_iff_forall_prop.1 (by decide)
  rw [valueWith_of_not_mark, if_pos digit]
  intro mark
  rw [no_digits c mark] at digit
  cases digit

section Values

variable {n : ℕ} {members : ℕ → Char → Scanner Fields} {elements : ℕ → Char → Scanner (List Json)}
  (fields : ∀ c, Extends Anything (fun m => members m c) n)
  (items : ∀ c, Extends Anything (fun m => elements m c) n)

include fields items

/-- A value that is no number needs nothing of its rest. -/
theorem extends_valueWith_of_not_number {c : Char} (no_sign : c ≠ '-')
    (no_digit : c.isDigit = false) :
    Extends Anything (fun m => valueWith (members m) (elements m) c) n := by
  have word (text : List Char) (v : Json) : Extends Anything (fun _ => do
      literal text
      (pure v : Scanner Json)) n := (Extends.literal text).andThen fun _ => Extends.pure v
  unfold valueWith
  refine Extends.ite (fun _ => ?_) fun _ => Extends.ite (fun _ => ?_) fun _ =>
    Extends.ite (fun _ => ?_) fun _ => Extends.ite (fun _ => word _ _) fun _ =>
    Extends.ite (fun _ => word _ _) fun _ => Extends.ite (fun _ => word _ _) fun _ =>
    Extends.ite (fun _ => word _ _) fun _ => Extends.ite (fun _ => word _ _) fun _ =>
    Extends.ite (fun sign => absurd sign no_sign) fun _ =>
    Extends.ite (fun digit => absurd digit (by simp [no_digit])) fun _ => Extends.fail
  · exact (extends_string true).andThen fun text => Extends.pure (Json.str text)
  · exact extends_token fun c => Extends.ite (fun _ => Extends.pure (Json.obj [])) fun _ =>
      (fields c).andThen fun pairs => Extends.pure (Json.obj (ofPairs pairs))
  · exact extends_token fun c => Extends.ite (fun _ => Extends.pure (Json.arr [])) fun _ =>
      (items c).andThen fun items => Extends.pure (Json.arr items)

/-- Any value, before a character that is no part of a number. -/
theorem extends_valueWith (c : Char) :
    Extends Follows (fun m => valueWith (members m) (elements m) c) n := by
  by_cases sign : c = '-'
  · subst sign
    have signed : Extends Follows (fun _ => negative) n :=
      Extends.item.andThen fun d => Extends.ite
        (fun _ => ((Extends.literal _).andThen fun _ => Extends.pure _).always)
        fun _ => Extends.ite (fun _ => extends_number true d) fun _ => Extends.fail.always
    exact signed
  · cases digit : c.isDigit with
    | true =>
        have same : (fun m => valueWith (members m) (elements m) c) = fun _ => number false c :=
          funext fun m => valueWith_digit (members m) (elements m) digit
        rw [same]
        exact extends_number false c
    | false => exact (extends_valueWith_of_not_number fields items sign digit).always

end Values

/-- After a value of a list: the end of the list, or a comma and the rest. -/
theorem extends_tail {α : Type} {n : ℕ} {lists : ℕ → Char → Scanner (List α)}
    (rest : ∀ c, Extends Anything (fun m => lists m c) n) (close : Char) (a : α) :
    Extends Anything (fun m => do
      skipWs
      let c ← item
      if c = close then pure [a]
      else if c = ',' then
        skipWs
        let c ← item
        let rest ← lists m c
        pure (a :: rest)
      else fail) n :=
  extends_token fun _ => Extends.ite (fun _ => Extends.pure [a]) fun _ =>
    Extends.ite
      (fun _ => extends_token fun c => (rest c).andThen fun rest => Extends.pure (a :: rest))
      fun _ => Extends.fail

/-- What comes before the end of a list or a comma ends there. -/
theorem follows_of_tail {α : Type} {more : Char → Scanner (List α)} {close : Char} {a : α}
    (mark : close = ']' ∨ close = '}') {s r : List Char} {b : List α}
    (read : (do
      skipWs
      let c ← item
      if c = close then pure [a]
      else if c = ',' then more c
      else fail : Scanner (List α)) s = some (b, r)) : Follows s := by
  obtain ⟨u, s₁, blank, next⟩ := bind_eq_some.mp read
  obtain ⟨ws, s₂, taken, rfl⟩ : ∃ ws s₂, many isWs s = some (ws, s₂) ∧ s₂ = s₁ := by
    obtain ⟨ws, s₂, one, two⟩ := bind_eq_some.mp blank
    exact ⟨ws, s₂, one, (pure_eq_some.mp two).2⟩
  obtain ⟨c, s₃, one, two⟩ := bind_eq_some.mp next
  obtain rfl := item_eq_some.mp one
  obtain ⟨-, left⟩ := Scanner.many_eq_some.mp taken
  cases s with
  | nil => cases left
  | cons c' s =>
      refine follows_cons s ?_
      cases space : isWs c' with
      | true => exact .inl rfl
      | false =>
          rw [List.dropWhile_cons, if_neg (by simp [space])] at left
          obtain ⟨rfl, rfl⟩ := List.cons.inj left
          by_cases closed : c' = close
          · subst closed
            exact mark.elim (fun h => .inr (.inr (.inl h))) fun h => .inr (.inr (.inr h))
          · by_cases comma : c' = ','
            · exact .inr (.inl comma)
            · simp [closed, comma] at two

/-- The induction is on the fuel. -/
theorem extends_lists (plain : Bool) (n : ℕ) :
    (∀ c, Extends Anything (fun m => members plain m c) n) ∧
      ∀ c, Extends Anything (fun m => elements plain m c) n := by
  induction n with
  | zero =>
      constructor <;>
      · intro c s a r read
        cases read
  | succ n ih =>
      obtain ⟨fields, items⟩ := ih
      constructor
      · intro c
        refine Extends.succ (fun m => by rw [members])
          (Extends.ite (fun _ => ?_) fun _ => Extends.fail)
        refine (extends_string (!plain)).andThen fun key => extends_token fun _ => Extends.ite
          (fun _ => extends_token fun c => ?_) fun _ => Extends.fail
        exact (extends_valueWith fields items c).bind
          (fun value => extends_tail fields '}' (key, value))
          fun value s b r read _ => follows_of_tail (.inr rfl) read
      · intro c
        refine Extends.succ (fun m => by rw [elements]) ?_
        exact (extends_valueWith fields items c).bind (fun value => extends_tail items ']' value)
          fun value s b r read _ => follows_of_tail (.inl rfl) read

/-! ### What a longer text begins with -/

section Longer

variable {s : List Char}

/-- A longer text begins with a value too, and with the same one if that has its own end. -/
theorem rawDecode_append {v : Json} {r : List Char} (read : rawDecode s = some (v, r))
    (more : List Char) : ∃ v' r', rawDecode (s ++ more) = some (v', r') ∧
      v'.isClosed = v.isClosed ∧ (v.isClosed = true → v' = v ∧ r' = r ++ more) := by
  -- a number is read, of whatever length
  have numeric {neg : Bool} {d : Char} {s r r' : List Char} {v v' : Json}
      (read : number neg d s = some (v, r)) (read' : number neg d (s ++ more) = some (v', r')) :
      v'.isClosed = v.isClosed ∧ (v.isClosed = true → v' = v ∧ r' = r ++ more) := by
    rw [number_not_closed read, number_not_closed read']
    exact ⟨rfl, nofun⟩
  cases s with
  | nil => cases read
  | cons c s =>
      have first : valueWith (members false (c :: s).length) (elements false (c :: s).length) c s =
          some (v, r) := read
      obtain ⟨fields, items⟩ := extends_lists false (c :: s).length
      by_cases sign : c = '-'
      · subst sign
        obtain ⟨d, s', one, two⟩ := bind_eq_some.mp first
        obtain rfl := item_eq_some.mp one
        by_cases infinite : d = 'I'
        · subst infinite
          rw [if_pos rfl] at two
          have word : Extends Anything (fun _ => do
              literal "nfinity".toList
              (pure (.float (.infinite true)) : Scanner Json)) 0 :=
            (Extends.literal _).andThen fun _ => Extends.pure _
          exact ⟨v, r ++ more, word s' v r two trivial 0 more (Nat.le_refl 0), rfl,
            fun _ => ⟨rfl, rfl⟩⟩
        · rw [if_neg infinite] at two
          split_ifs at two with digit
          · obtain ⟨⟨v', r'⟩, read'⟩ :=
              Option.isSome_iff_exists.mp (number_isSome true d (s' ++ more))
            have again : rawDecode ('-' :: d :: s' ++ more) = number true d (s' ++ more) := by
              change negative (d :: (s' ++ more)) = _
              have one : item (d :: (s' ++ more)) = some (d, s' ++ more) := rfl
              rw [negative, bind_of_some one, if_neg infinite, if_pos digit]
            exact ⟨v', r', again.trans read', numeric two read'⟩
          · cases two
      · cases digit : c.isDigit with
        | true =>
            rw [valueWith_digit _ _ digit] at first
            obtain ⟨⟨v', r'⟩, read'⟩ :=
              Option.isSome_iff_exists.mp (number_isSome false c (s ++ more))
            have again : rawDecode (c :: s ++ more) = number false c (s ++ more) := by
              change valueWith (members false _) (elements false _) c (s ++ more) = _
              rw [valueWith_digit _ _ digit]
            exact ⟨v', r', again.trans read', numeric first read'⟩
        | false =>
            have again : rawDecode (c :: s ++ more) = some (v, r ++ more) :=
              extends_valueWith_of_not_number fields items sign digit s v r first trivial _ more
                (by simp)
            exact ⟨v, r ++ more, again, rfl, fun _ => ⟨rfl, rfl⟩⟩

/-- A text that begins with a value begins with one however it goes on. -/
theorem isSome_rawDecode_append (read : (rawDecode s).isSome = true) (more : List Char) :
    (rawDecode (s ++ more)).isSome = true := by
  obtain ⟨⟨v, r⟩, found⟩ := Option.isSome_iff_exists.mp read
  obtain ⟨v', r', found', -⟩ := rawDecode_append found more
  rw [found']
  rfl

end Longer

/-- An object starts with a brace. -/
theorem rawDecode_obj_head {c : Char} {s r : List Char} {fields : Fields}
    (read : rawDecode (c :: s) = some (.obj fields, r)) : c = '{' := by
  have first : valueWith (members false (c :: s).length) (elements false (c :: s).length) c s =
      some (.obj fields, r) := read
  have constant {text : List Char} {v : Json}
      (read : (do literal text; pure v : Scanner Json) s = some (.obj fields, r)) : v = .obj fields := by
    obtain ⟨_, _, -, rest⟩ := bind_eq_some.mp read
    exact (pure_eq_some.mp rest).1
  have no_number {neg : Bool} {d : Char} {s : List Char} (read : number neg d s = some (.obj fields, r)) :
      False := by
    have closed := number_not_closed read
    cases closed
  by_contra other
  rw [valueWith, if_neg other] at first
  split at first
  · obtain ⟨_, _, -, rest⟩ := bind_eq_some.mp first
    cases (pure_eq_some.mp rest).1
  split at first
  · obtain ⟨_, _, -, rest⟩ := bind_eq_some.mp first
    obtain ⟨_, _, -, rest⟩ := bind_eq_some.mp rest
    split at rest
    · cases (pure_eq_some.mp rest).1
    · obtain ⟨_, _, -, rest⟩ := bind_eq_some.mp rest
      cases (pure_eq_some.mp rest).1
  iterate 5
    split at first
    · cases constant first
  split at first
  · obtain ⟨_, _, -, rest⟩ := bind_eq_some.mp first
    split at rest
    · obtain ⟨_, _, -, rest⟩ := bind_eq_some.mp rest
      cases (pure_eq_some.mp rest).1
    split at rest
    · exact no_number rest
    · cases rest
  split at first
  · exact no_number first
  · cases first
end Json
