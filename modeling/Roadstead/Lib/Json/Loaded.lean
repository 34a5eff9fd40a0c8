import Roadstead.Lib.Json.Reread

/-!
# What is read can be printed

`exact_of_loads`: a value that `json.loads` gives is one that `json.dumps` prints without loss, so it
is the same after any number of rounds.
-/

/-- Whatever a scanner reads has a property. -/
def Scanner.Yields {α : Type} (P : α → Prop) (F : Scanner α) : Prop :=
  ∀ s a r, F s = some (a, r) → P a

namespace Scanner.Yields

variable {α β : Type} {P : α → Prop} {Q : β → Prop} {F F' : Scanner α}

theorem pure {a : α} (holds : P a) : Yields P (pure a : Scanner α) := by
  intro s b r read
  obtain ⟨rfl, -⟩ := pure_eq_some.mp read
  exact holds

theorem fail : Yields P (Scanner.fail : Scanner α) := by
  intro s a r read
  cases read

theorem any (F : Scanner α) : Yields (fun _ => True) F := fun _ _ _ _ => trivial

theorem ite {c : Prop} [Decidable c] (pos : c → Yields P F) (neg : ¬ c → Yields P F') :
    Yields P (if c then F else F') := by
  split
  · next is => exact pos is
  · next is => exact neg is

theorem bind {G : α → Scanner β} (first : Yields P F) (second : ∀ a, P a → Yields Q (G a)) :
    Yields Q (F >>= G) := by
  intro s b r read
  obtain ⟨a, s', one, two⟩ := bind_eq_some.mp read
  exact second a (first s a s' one) s' b r two

/-- What the first scanner reads does not matter. -/
theorem after (F : Scanner α) {G : α → Scanner β} (second : ∀ a, Yields Q (G a)) :
    Yields Q (F >>= G) :=
  (any F).bind fun a _ => second a

end Scanner.Yields

namespace Json

open Scanner (Yields item)

/-! ### Numbers -/

theorem exact_numberValue (negative : Bool) (whole : List Char) (frac : Option (List Char))
    (exp : Option (Bool × List Char)) : Exact (numberValue negative whole frac exp) := by
  have signed {q : ℚ} (decimal : Decimal q) : Decimal (if negative then -q else q) := by
    split
    · rw [Decimal, places, Rat.neg_den]
      exact decimal
    · exact decimal
  have scaled (n k e : ℕ) (down : Bool) :
      Decimal (if down then (n : ℚ) / 10 ^ k / 10 ^ e else (n : ℚ) / 10 ^ k * 10 ^ e) := by
    split
    · rw [div_div, ← pow_add]
      exact decimal_div_pow n (k + e)
    · have whole := decimal_div_pow (n * 10 ^ e : ℕ) k
      rw [Int.cast_natCast, Nat.cast_mul, Nat.cast_pow] at whole
      rw [div_mul_eq_mul_div]
      exact whole
  -- Only a number with neither a fraction nor an exponent is an integer.
  cases frac with
  | none =>
      cases exp with
      | none => trivial
      | some _ => exact signed (scaled _ _ _ _)
  | some _ =>
      cases exp with
      | none | some _ => exact signed (scaled _ _ _ _)

theorem yields_number (negative : Bool) (d : Char) : Yields Exact (number negative d) :=
  .after _ fun _ => .after _ fun _ => .after _ fun _ => .pure (exact_numberValue _ _ _ _)

theorem yields_negative : Yields Exact negative :=
  .after _ fun _ => .ite (fun _ => .after _ fun _ => .pure trivial)
    fun _ => .ite (fun _ => yields_number _ _) fun _ => .fail

/-! ### Objects -/

theorem exactFields_iff {fields : Fields} :
    ExactFields fields ↔ ∀ field ∈ fields, Exact field.2 := by
  induction fields with
  | nil => exact ⟨fun _ _ mem => absurd mem List.not_mem_nil, fun _ => trivial⟩
  | cons field fields ih => rw [ExactFields, ih, List.forall_mem_cons]

theorem exactItems_iff {items : List Json} : ExactItems items ↔ ∀ v ∈ items, Exact v := by
  induction items with
  | nil => exact ⟨fun _ _ mem => absurd mem List.not_mem_nil, fun _ => trivial⟩
  | cons v items ih => rw [ExactItems, ih, List.forall_mem_cons]

theorem mem_keys_set {fields : Fields} {key key' : String} {v : Json} :
    key' ∈ (fields.set key v).map Prod.fst ↔ key' ∈ fields.map Prod.fst ∨ key' = key := by
  induction fields with
  | nil => simp [Fields.set]
  | cons field fields ih =>
      rw [Fields.set]
      split
      · next here => simp [here]; tauto
      · rw [List.map_cons, List.mem_cons, ih, List.map_cons, List.mem_cons, or_assoc]

theorem nodup_set {fields : Fields} (distinct : (fields.map Prod.fst).Nodup) (key : String)
    (v : Json) : ((fields.set key v).map Prod.fst).Nodup := by
  induction fields with
  | nil => simp [Fields.set]
  | cons field fields ih =>
      rw [List.map_cons, List.nodup_cons] at distinct
      rw [Fields.set]
      split
      · next here =>
        rw [List.map_cons, List.nodup_cons, ← here]
        exact distinct
      · next other =>
        rw [List.map_cons, List.nodup_cons, mem_keys_set]
        exact ⟨fun either => either.elim distinct.1 other, ih distinct.2⟩

theorem exact_set {fields : Fields} (exact : Exact (obj fields)) (key : String) {v : Json}
    (here : Exact v) : Exact (obj (fields.set key v)) := by
  refine ⟨nodup_set exact.1 key v, exactFields_iff.mpr fun field mem => ?_⟩
  rcases mem_set mem with rfl | old
  · exact here
  · exact exactFields_iff.mp exact.2 field old

theorem exact_ofPairs {pairs : Fields} (exact : ExactFields pairs) : Exact (obj (ofPairs pairs)) := by
  have fold (pairs : Fields) : ∀ done : Fields, ExactFields pairs → Exact (obj done) →
      Exact (obj (pairs.foldl (fun (fields : Fields) pair => fields.set pair.1 pair.2) done)) := by
    induction pairs with
    | nil => exact fun _ _ sofar => sofar
    | cons pair pairs ih =>
        exact fun done exact sofar => ih _ exact.2 (exact_set sofar pair.1 exact.1)
  exact fold pairs [] exact ⟨List.nodup_nil, trivial⟩

/-! ### Values -/

theorem yields_valueWith {members : Char → Scanner Fields} {elements : Char → Scanner (List Json)}
    (fields : ∀ c, Yields ExactFields (members c)) (items : ∀ c, Yields ExactItems (elements c))
    (c : Char) : Yields Exact (valueWith members elements c) := by
  refine .ite (fun _ => .after _ fun _ => .pure trivial) fun _ => .ite (fun _ => ?_) fun _ =>
    .ite (fun _ => ?_) fun _ => .ite (fun _ => .after _ fun _ => .pure trivial) fun _ =>
    .ite (fun _ => .after _ fun _ => .pure trivial) fun _ =>
    .ite (fun _ => .after _ fun _ => .pure trivial) fun _ =>
    .ite (fun _ => .after _ fun _ => .pure trivial) fun _ =>
    .ite (fun _ => .after _ fun _ => .pure trivial) fun _ =>
    .ite (fun _ => yields_negative) fun _ => .ite (fun _ => yields_number _ _) fun _ => .fail
  · exact .after _ fun _ => .after _ fun c => .ite (fun _ => .pure ⟨List.nodup_nil, trivial⟩)
      fun _ => (fields c).bind fun _ exact => .pure (exact_ofPairs exact)
  · exact .after _ fun _ => .after _ fun c => .ite (fun _ => .pure trivial)
      fun _ => (items c).bind fun _ exact => .pure exact

theorem yields_lists (plain : Bool) (n : ℕ) :
    (∀ c, Yields ExactFields (members plain n c)) ∧ ∀ c, Yields ExactItems (elements plain n c) := by
  induction n with
  | zero => exact ⟨fun _ => .fail, fun _ => .fail⟩
  | succ n ih =>
      obtain ⟨fields, items⟩ := ih
      refine ⟨fun c => ?_, fun c => ?_⟩
      · rw [members]
        refine .ite (fun _ => .after _ fun key => .after _ fun _ => .after _ fun c =>
          .ite (fun _ => .after _ fun _ => .after _ fun c => ?_) fun _ => .fail) fun _ => .fail
        refine (yields_valueWith fields items c).bind fun v exact => .after _ fun _ =>
          .after _ fun c => .ite (fun _ => .pure ⟨exact, trivial⟩) fun _ => .ite (fun _ => ?_)
            fun _ => .fail
        exact .after _ fun _ => .after _ fun c => (fields c).bind fun rest more => .pure ⟨exact, more⟩
      · rw [elements]
        refine (yields_valueWith fields items c).bind fun v exact => .after _ fun _ =>
          .after _ fun c => .ite (fun _ => .pure ⟨exact, trivial⟩) fun _ => .ite (fun _ => ?_)
            fun _ => .fail
        exact .after _ fun _ => .after _ fun c => (items c).bind fun rest more => .pure ⟨exact, more⟩

/-- What was read can be printed and read again. -/
theorem exact_of_loads {plain : Bool} {s : List Char} {v : Json} (read : loads plain s = some v) :
    Exact v := by
  rw [loads] at read
  split_ifs at read
  simp only at read
  split at read
  · next found scanned =>
    split_ifs at read
    obtain rfl := Option.some.inj read
    have value : Yields Exact (value plain (s.dropWhile isWs).length) :=
      .after _ fun c => yields_valueWith (yields_lists plain _).1 (yields_lists plain _).2 c
    exact value _ _ _ scanned
  · cases read

end Json
