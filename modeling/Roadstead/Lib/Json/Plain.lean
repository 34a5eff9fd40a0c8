import Roadstead.Lib.Json.Scan

/-!
# Keys that are written plainly

`loads true` reads texts that write no key with an escape.  `loads_plain`: it reads what
`loads` reads, and a key anywhere in the value stands in the text between quotes.  The
converse of the second part fails: a text may have the characters in a string value.

`Plain front names F G` is the statement for a piece `F` of the strict scanner against the same
piece `G` of the other, where `front` is what has been read before; `Plain.bind` composes.
-/

namespace Json

open Scanner (item many literal fail Stable bind_eq_some bind_of_some pure_eq_some item_eq_some)

/-- `key` is a key of the value, or of one inside it. -/
inductive Mentions (key : String) : Json → Prop
  | here {fields : Fields} {v : Json} (mem : (key, v) ∈ fields) : Mentions key (obj fields)
  | field {fields : Fields} {k : String} {v : Json} (mem : (k, v) ∈ fields)
      (inside : Mentions key v) : Mentions key (obj fields)
  | item {items : List Json} {v : Json} (mem : v ∈ items) (inside : Mentions key v) :
      Mentions key (arr items)

/-- `key` is a key of one of the fields, or of a value inside one. -/
def FieldsMention (fields : Fields) (key : String) : Prop :=
  ∃ field ∈ fields, field.1 = key ∨ Mentions key field.2

/-- `key` is a key of a value inside one of the items. -/
def ItemsMention (items : List Json) (key : String) : Prop := ∃ v ∈ items, Mentions key v

theorem mentions_obj {key : String} {fields : Fields} :
    Mentions key (obj fields) ↔ FieldsMention fields key := by
  constructor
  · rintro (⟨mem⟩ | ⟨mem, inside⟩)
    · exact ⟨_, mem, .inl rfl⟩
    · exact ⟨_, mem, .inr inside⟩
  · rintro ⟨⟨k, v⟩, mem, rfl | inside⟩
    · exact .here mem
    · exact .field mem inside

theorem mentions_arr {key : String} {items : List Json} :
    Mentions key (arr items) ↔ ItemsMention items key := by
  constructor
  · intro mentioned
    cases mentioned with
    | item mem inside => exact ⟨_, mem, inside⟩
  · rintro ⟨v, mem, inside⟩
    exact .item mem inside

theorem mem_set {fields : Fields} {key : String} {v : Json} {field : String × Json}
    (mem : field ∈ Fields.set fields key v) : field = (key, v) ∨ field ∈ fields := by
  induction fields with
  | nil => exact .inl (List.mem_singleton.mp mem)
  | cons first fields ih =>
      rw [Fields.set] at mem
      split at mem
      · exact (List.mem_cons.mp mem).imp_right (List.mem_cons_of_mem _)
      · rcases List.mem_cons.mp mem with rfl | mem
        · exact .inr List.mem_cons_self
        · exact (ih mem).imp_right (List.mem_cons_of_mem _)

/-- The mapping of listed pairs has no others. -/
theorem mem_ofPairs {pairs : Fields} {field : String × Json} (mem : field ∈ ofPairs pairs) :
    field ∈ pairs := by
  have into : ∀ (pairs fields : Fields),
      field ∈ pairs.foldl (fun fields pair => fields.set pair.1 pair.2) fields →
        field ∈ pairs ∨ field ∈ fields := by
    intro pairs
    induction pairs with
    | nil => exact fun _ mem => .inr mem
    | cons pair pairs ih =>
        intro fields mem
        rcases ih _ mem with mem | mem
        · exact .inl (List.mem_cons_of_mem _ mem)
        · rcases mem_set mem with rfl | mem
          · exact .inl List.mem_cons_self
          · exact .inr mem
  rcases into pairs [] mem with mem | mem
  · exact mem
  · cases mem

/-! ### Pieces of the strict scanner -/

/-- A key between quotes. -/
def quoted (key : String) : List Char := '"' :: (key.toList ++ ['"'])

/-- What `F` reads, `G` reads; and the names of it stand in the text, or in `front` and the
text. -/
def Plain {α : Type} (front : List Char) (names : α → String → Prop) (F G : Scanner α) : Prop :=
  ∀ s a r, F s = some (a, r) →
    G s = some (a, r) ∧ r <:+ s ∧ ∀ key, names a key → quoted key <:+: front ++ s

namespace Plain

variable {α β : Type} {front : List Char} {names : α → String → Prop} {F G : Scanner α}

/-- A piece without keys is the same in both. -/
theorem same {j k : ℕ} (stable : Stable j k (fun _ => F) 0) (front : List Char) :
    Plain front (fun _ _ => False) F F :=
  fun _ _ _ read => ⟨read, stable.suffix read, fun _ h => h.elim⟩

theorem pure {a : α} (unnamed : ∀ key, ¬ names a key) :
    Plain front names (pure a) (Pure.pure a) := by
  intro s b r read
  obtain ⟨rfl, rfl⟩ := pure_eq_some.mp read
  exact ⟨read, List.suffix_rfl, fun key named => absurd named (unnamed key)⟩

theorem fail : Plain front names fail G := by
  intro s a r read
  cases read

theorem ite {F' G' : Scanner α} {c : Prop} [Decidable c] (pos : c → Plain front names F G)
    (neg : ¬ c → Plain front names F' G') :
    Plain front names (if c then F else F') (if c then G else G') := by
  split
  · exact pos ‹_›
  · exact neg ‹_›

/-- The names of the whole are those of the first piece and the others. -/
theorem bind {all : β → String → Prop} {F' G' : α → Scanner β} (first : Plain front names F G)
    (second : ∀ a, Plain [] (fun b key => all b key ∧ ¬ names a key) (F' a) (G' a)) :
    Plain front all (F >>= F') (G >>= G') := by
  intro s b r read
  obtain ⟨a, s', one, two⟩ := bind_eq_some.mp read
  obtain ⟨one', suffix, inside⟩ := first s a s' one
  obtain ⟨two', suffix', inside'⟩ := second a s' b r two
  refine ⟨(bind_of_some one').trans two', suffix'.trans suffix, fun key named => ?_⟩
  by_cases early : names a key
  · exact inside key early
  · have late : quoted key <:+: s' := inside' key ⟨named, early⟩
    exact late.trans (suffix.isInfix.trans (List.suffix_append front s).isInfix)

/-- The character that is read is in front of what the rest reads. -/
theorem item {F' G' : Char → Scanner α} (rest : ∀ c, Plain [c] names (F' c) (G' c)) :
    Plain front names (item >>= F') (Scanner.item >>= G') := by
  intro s a r read
  obtain ⟨c, s', one, two⟩ := bind_eq_some.mp read
  obtain rfl := item_eq_some.mp one
  obtain ⟨two', suffix, inside⟩ := rest c s' a r two
  refine ⟨(bind_of_some one).trans two', suffix.trans (List.suffix_cons c s'), fun key named => ?_⟩
  exact (inside key named).trans (List.suffix_append front _).isInfix

end Plain

/-! ### Strings and numbers -/

theorem units_plain {s r : List Char} {us : List ℕ} (read : units false .text s = some (us, r)) :
    units true .text s = some (us, r) ∧ ∃ cs : List Char, us = cs.map Char.toNat ∧ s = cs ++ '"' :: r := by
  induction s generalizing us with
  | nil => cases read
  | cons c s ih =>
      simp only [units, Bool.false_eq_true, if_false] at read ⊢
      split_ifs at read ⊢ with quote backslash control
      · cases read
        exact ⟨rfl, [], rfl, by rw [quote]; rfl⟩
      · obtain ⟨⟨us', r'⟩, rest_read, same⟩ := Option.map_eq_some_iff.mp read
        cases same
        obtain ⟨read', cs, rfl, rfl⟩ := ih rest_read
        exact ⟨by rw [read']; rfl, c :: cs, rfl, rfl⟩

theorem charOf_toNat (c : Char) : charOf c.toNat = c := by
  rw [charOf, if_pos (show c.toNat.isValidChar from c.valid), Char.ofNat_toNat]

/-- Characters are no surrogates, and nothing is joined. -/
theorem joinSurrogates_map_toNat (cs : List Char) : joinSurrogates (cs.map Char.toNat) = cs := by
  induction cs with
  | nil => rfl
  | cons c cs ih =>
      have not_high : ¬ (0xd800 ≤ c.toNat ∧ c.toNat ≤ 0xdbff) := by
        have valid := c.valid
        simp only [UInt32.isValidChar, Nat.isValidChar] at valid
        change c.toNat < 0xd800 ∨ 0xdfff < c.toNat ∧ c.toNat < 0x110000 at valid
        omega
      cases cs with
      | nil => simp [joinSurrogates, charOf_toNat]
      | cons d cs =>
          rw [List.map_cons] at ih ⊢
          rw [List.map_cons, joinSurrogates, if_neg (fun joined => not_high ⟨joined.1, joined.2.1⟩), ih,
            charOf_toNat]

/-- A string without escapes stands in the text. -/
theorem string_plain {s r : List Char} {key : String} (read : string false s = some (key, r)) :
    string true s = some (key, r) ∧ s = key.toList ++ '"' :: r := by
  obtain ⟨us, s', one, two⟩ := bind_eq_some.mp read
  obtain ⟨rfl, rfl⟩ := pure_eq_some.mp two
  obtain ⟨one', cs, rfl, rfl⟩ := units_plain one
  refine ⟨(bind_of_some one').trans rfl, ?_⟩
  rw [joinSurrogates_map_toNat, String.toList_ofList]

theorem not_mentions_scalar {key : String} {v : Json} (scalar : v.asObj? = none)
    (scalar' : v.asArr? = none) : ¬ Mentions key v := by
  rintro (_ | _ | _) <;> simp_all [asObj?, asArr?]

theorem not_mentions_number {key : String} (neg : Bool) (ds : List Char) (frac : Option (List Char))
    (exp : Option (Bool × List Char)) : ¬ Mentions key (numberValue neg ds frac exp) := by
  apply not_mentions_scalar <;>
  · unfold numberValue
    cases frac <;> cases exp <;> rfl

/-! ### Values -/

section Values

variable {front : List Char}

/-- A value that is no object or array, read after a piece that is the same in both. -/
theorem Plain.scalar {α : Type} {F : Scanner α} {j k : ℕ} (stable : Stable j k (fun _ => F) 0)
    {v : α → Json} (unnamed : ∀ a key, ¬ Mentions key (v a)) :
    Plain front (fun v key => Mentions key v) (F >>= fun a => Pure.pure (v a))
      (F >>= fun a => Pure.pure (v a)) :=
  (Plain.same stable front).bind fun a => Plain.pure fun key named => unnamed a key named.1

theorem number_plain (neg : Bool) (d : Char) :
    Plain front (fun v key => Mentions key v) (number neg d) (number neg d) := by
  intro s v r read
  obtain ⟨read', suffix, -⟩ := Plain.same (stable_number neg d 0) front s v r read
  refine ⟨read', suffix, fun key named => ?_⟩
  obtain ⟨ds, s₁, -, read⟩ := bind_eq_some.mp read
  obtain ⟨frac, s₂, -, read⟩ := bind_eq_some.mp read
  obtain ⟨exp, s₃, -, read⟩ := bind_eq_some.mp read
  obtain ⟨rfl, -⟩ := pure_eq_some.mp read
  exact absurd named (not_mentions_number neg _ frac exp)

theorem literal_plain (text : List Char) {v : Json} (unnamed : ∀ key, ¬ Mentions key v) :
    Plain front (fun v key => Mentions key v)
      (literal text >>= fun _ => pure v) (literal text >>= fun _ => pure v) :=
  Plain.scalar (Stable.literal text 0) fun _ => unnamed

theorem negative_plain : Plain front (fun v key => Mentions key v) negative negative :=
  Plain.item fun _ => Plain.ite
    (fun _ => literal_plain _ fun _ => not_mentions_scalar rfl rfl)
    fun _ => Plain.ite (fun _ => number_plain true _) fun _ => Plain.fail

/-- A value is read alike when what it lists is. -/
theorem valueWith_plain {members members' : Char → Scanner Fields}
    {elements elements' : Char → Scanner (List Json)}
    (fields : ∀ c, Plain [c] FieldsMention (members c) (members' c))
    (items : ∀ c, Plain [c] ItemsMention (elements c) (elements' c)) (c : Char) :
    Plain front (fun v key => Mentions key v) (valueWith members elements c)
      (valueWith members' elements' c) := by
  have word (text : List Char) {v : Json} (unnamed : ∀ key, ¬ Mentions key v) :
      Plain front (fun v key => Mentions key v) (literal text >>= fun _ => pure v)
        (literal text >>= fun _ => pure v) := literal_plain text unnamed
  unfold valueWith
  refine Plain.ite (fun _ => ?_) fun _ => Plain.ite (fun _ => ?_) fun _ =>
    Plain.ite (fun _ => ?_) fun _ => Plain.ite (fun _ => ?_) fun _ => Plain.ite (fun _ => ?_) fun _ =>
    Plain.ite (fun _ => ?_) fun _ => Plain.ite (fun _ => ?_) fun _ => Plain.ite (fun _ => ?_) fun _ =>
    Plain.ite (fun _ => negative_plain) fun _ => Plain.ite (fun _ => number_plain false c) fun _ =>
    Plain.fail
  · exact Plain.scalar (v := Json.str) (stable_string true 0) fun _ _ => not_mentions_scalar rfl rfl
  · refine (Plain.same (stable_skipWs 0) front).bind fun _ => Plain.item fun c => Plain.ite
      (fun _ => Plain.pure fun key named => ?_)
      fun _ => ((fields c).bind fun pairs => Plain.pure fun key named => ?_)
    · obtain ⟨_, mem, -⟩ := mentions_obj.mp named.1
      cases mem
    · obtain ⟨field, mem, mentioned⟩ := mentions_obj.mp named.1.1
      exact named.2 ⟨field, mem_ofPairs mem, mentioned⟩
  · refine (Plain.same (stable_skipWs 0) front).bind fun _ => Plain.item fun c => Plain.ite
      (fun _ => Plain.pure fun key named => ?_)
      fun _ => ((items c).bind fun items => Plain.pure fun key named => ?_)
    · obtain ⟨_, mem, -⟩ := mentions_arr.mp named.1
      cases mem
    · exact named.2 (mentions_arr.mp named.1.1)
  all_goals exact word _ fun _ => not_mentions_scalar rfl rfl

/-- After a value of a list whose names are accounted for. -/
theorem tail_plain {α : Type} {lists lists' : Char → Scanner (List α)} (names : List α → String → Prop)
    (close : Char) (a : α) (rest : ∀ c, Plain [c] names (lists c) (lists' c))
    {all : List α → String → Prop} (split : ∀ as key, all (a :: as) key → names as key)
    (single : ∀ key, ¬ all [a] key) :
    Plain front all
      (do
        skipWs
        let c ← item
        if c = close then pure [a]
        else if c = ',' then
          skipWs
          let c ← item
          let rest ← lists c
          pure (a :: rest)
        else fail)
      (do
        skipWs
        let c ← item
        if c = close then pure [a]
        else if c = ',' then
          skipWs
          let c ← item
          let rest ← lists' c
          pure (a :: rest)
        else fail) :=
  (Plain.same (stable_skipWs 0) front).bind fun _ => Plain.item fun _ => Plain.ite
    (fun _ => Plain.pure fun key named => single key named.1)
    fun _ => Plain.ite
      (fun _ => (Plain.same (stable_skipWs 0) _).bind fun _ => Plain.item fun c =>
        (rest c).bind fun as => Plain.pure fun key named => named.2 (split as key named.1.1.1))
      fun _ => Plain.fail

/-- What the strict scanner lists; the induction is on the fuel. -/
theorem lists_plain (n : ℕ) :
    (∀ c, Plain [c] FieldsMention (members true n c) (members false n c)) ∧
      ∀ c, Plain [c] ItemsMention (elements true n c) (elements false n c) := by
  induction n with
  | zero => exact ⟨fun _ => Plain.fail, fun _ => Plain.fail⟩
  | succ n ih =>
      obtain ⟨fields, items⟩ := ih
      constructor
      · intro c
        rw [members, members]
        refine Plain.ite (fun quote => ?_) fun _ => Plain.fail
        have key_plain : Plain [c] (fun key name => name = key) (string (!true)) (string (!false)) := by
          intro s key r read
          obtain ⟨read', cut⟩ := string_plain read
          refine ⟨read', (stable_string (n := 0) true 0).suffix read', ?_⟩
          rintro name rfl
          refine List.IsPrefix.isInfix ⟨r, ?_⟩
          rw [quote, cut, quoted]
          simp
        refine key_plain.bind fun key => (Plain.same (stable_skipWs 0) _).bind fun _ =>
          Plain.item fun _ => Plain.ite (fun _ => ?_) fun _ => Plain.fail
        refine (Plain.same (stable_skipWs 0) _).bind fun _ => Plain.item fun c =>
          (valueWith_plain fields items c).bind fun v =>
            tail_plain FieldsMention '}' (key, v) fields ?_ ?_
        · rintro ps name ⟨⟨⟨⟨⟨field, mem, mentioned⟩, other⟩, -⟩, -⟩, outside⟩
          rcases List.mem_cons.mp mem with rfl | mem
          · exact (mentioned.elim (fun same => other same.symm) outside).elim
          · exact ⟨field, mem, mentioned⟩
        · rintro name ⟨⟨⟨⟨⟨field, mem, mentioned⟩, other⟩, -⟩, -⟩, outside⟩
          obtain rfl := List.mem_singleton.mp mem
          exact mentioned.elim (fun same => other same.symm) outside
      · intro c
        rw [elements, elements]
        refine (valueWith_plain fields items c).bind fun v =>
          tail_plain ItemsMention ']' v items ?_ ?_
        · rintro as key ⟨⟨u, mem, mentioned⟩, other⟩
          rcases List.mem_cons.mp mem with rfl | mem
          · exact absurd mentioned other
          · exact ⟨u, mem, mentioned⟩
        · rintro key ⟨⟨u, mem, mentioned⟩, other⟩
          rw [List.mem_singleton] at mem
          exact other (mem ▸ mentioned)

theorem value_plain (n : ℕ) : Plain [] (fun v key => Mentions key v) (value true n) (value false n) :=
  Plain.item fun c => valueWith_plain (lists_plain n).1 (lists_plain n).2 c

end Values

/-- The strict form reads what `loads` reads, and the keys of it stand in the text. -/
theorem loads_plain {s : List Char} {v : Json} (read : loads true s = some v) :
    loads false s = some v ∧ ∀ key, Mentions key v → quoted key <:+: s := by
  simp only [loads] at read ⊢
  split at read
  · cases read
  · rename_i unmarked
    rw [if_neg unmarked]
    split at read
    · rename_i v' rest found
      split at read
      · rename_i white
        cases read
        obtain ⟨found', -, inside⟩ := value_plain _ _ _ _ found
        refine ⟨by simp only [found', white, if_true], fun key named => ?_⟩
        exact (inside key named).trans (List.dropWhile_suffix isWs).isInfix
      · cases read
    · cases read

end Json
