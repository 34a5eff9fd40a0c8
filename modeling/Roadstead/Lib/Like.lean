import Mathlib.Data.List.Infix

/-!
# Matching with LIKE

The patterns of SQL's `LIKE … ESCAPE`: `%` stands for any text, `_` for any character, and a character
after the escape for itself.  Letters of the ASCII alphabet match in either case, all others as they
are.  `like_escape` is what a literal text becomes of it that is escaped and followed by `%`: a prefix,
up to the case of those letters.
-/

namespace Like

/-- What a pattern asks for in one place. -/
inductive Tok where
  | any
  | one
  | lit (c : Char)
  deriving DecidableEq

/-- A character that the escape does not precede. -/
def Tok.plain (c : Char) : Tok := if c = '%' then .any else if c = '_' then .one else .lit c

/-- The places of a pattern; a pattern that ends in the escape matches nothing. -/
def parse (esc : Char) : List Char → Option (List Tok)
  | [] => some []
  | c :: pattern =>
      if c = esc then
        match pattern with
        | [] => none
        | d :: pattern => (parse esc pattern).map (.lit d :: ·)
      else (parse esc pattern).map (.plain c :: ·)

/-- Two characters are the same, up to the case of ASCII letters. -/
def SameLetter (c d : Char) : Prop := c.toLower = d.toLower

instance (c d : Char) : Decidable (SameLetter c d) := inferInstanceAs (Decidable (_ = _))

/-- Whether a text is what a pattern asks for. -/
def matchesToks : List Tok → List Char → Bool
  | [], text => text.isEmpty
  | .any :: toks, text => text.tails.any (matchesToks toks)
  | .one :: toks, text =>
      match text with
      | [] => false
      | _ :: text => matchesToks toks text
  | .lit c :: toks, text =>
      match text with
      | [] => false
      | d :: text => decide (SameLetter c d) && matchesToks toks text

/-- `text LIKE pattern ESCAPE esc`. -/
def like (esc : Char) (pattern text : List Char) : Bool :=
  (parse esc pattern).any fun toks => matchesToks toks text

/-- The characters that mean themselves only after the escape. -/
def Special (esc c : Char) : Prop := c = esc ∨ c = '%' ∨ c = '_'

instance (esc c : Char) : Decidable (Special esc c) := inferInstanceAs (Decidable (_ ∨ _ ∨ _))

/-- A literal text, escaped. -/
def escape (esc : Char) (text : List Char) : List Char :=
  text.flatMap fun c => if Special esc c then [esc, c] else [c]

variable {esc : Char}

theorem parse_special (c : Char) (pattern : List Char) :
    parse esc (esc :: c :: pattern) = (parse esc pattern).map (.lit c :: ·) := if_pos rfl

theorem parse_plain {c : Char} (plain : ¬Special esc c) (pattern : List Char) :
    parse esc (c :: pattern) = (parse esc pattern).map (.lit c :: ·) := by
  rw [Special, not_or, not_or] at plain
  rw [parse.eq_def]
  simp only [if_neg plain.1, Tok.plain, if_neg plain.2.1, if_neg plain.2.2]

/-- An escaped text asks for its characters one by one. -/
theorem parse_escape (text pattern : List Char) :
    parse esc (escape esc text ++ pattern) = (parse esc pattern).map (text.map .lit ++ ·) := by
  induction text with
  | nil => exact Option.map_id'.symm
  | cons c text ih =>
      have step : parse esc (escape esc (c :: text) ++ pattern) =
          (parse esc (escape esc text ++ pattern)).map (.lit c :: ·) := by
        rw [escape, List.flatMap_cons, ← escape, List.append_assoc]
        by_cases special : Special esc c
        · rw [if_pos special]
          exact parse_special c _
        · rw [if_neg special]
          exact parse_plain special _
      rw [step, ih, Option.map_map]
      rfl

theorem parse_any (notPercent : esc ≠ '%') : parse esc ['%'] = some [.any] := by
  rw [parse.eq_def]
  simp only [if_neg notPercent.symm]
  rfl

theorem matchesToks_any (text : List Char) : matchesToks [.any] text = true := by
  rw [matchesToks, List.any_eq_true]
  exact ⟨[], (List.mem_tails _ _).mpr (List.nil_suffix), rfl⟩

/-- Literal characters and a final `%` match a prefix. -/
theorem matchesToks_prefix (lead text : List Char) :
    matchesToks (lead.map .lit ++ [.any]) text = true ↔
      lead.map Char.toLower <+: text.map Char.toLower := by
  induction lead generalizing text with
  | nil => exact iff_of_true (matchesToks_any text) List.nil_prefix
  | cons c lead ih =>
      cases text with
      | nil => simp [matchesToks]
      | cons d text =>
          rw [List.map_cons, List.map_cons, List.map_cons, List.cons_append, List.cons_prefix_cons,
            matchesToks, Bool.and_eq_true, decide_eq_true_eq, ih]
          rfl

/-- An escaped text and a final `%` match the texts that begin with it, up to the case of ASCII
letters. -/
theorem like_escape (notPercent : esc ≠ '%') (lead text : List Char) :
    like esc (escape esc lead ++ ['%']) text = true ↔
      lead.map Char.toLower <+: text.map Char.toLower := by
  rw [like, parse_escape, parse_any notPercent]
  exact matchesToks_prefix lead text

end Like
