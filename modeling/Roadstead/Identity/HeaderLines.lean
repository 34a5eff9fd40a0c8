import Roadstead.Identity.Forwarded

/-!
# A list over several header lines

A header that is a list may come in several lines, and the lines in their order are the list.
`_header` reads the first line of a name, so `client_address` sees the front of the list: the part that
the caller wrote, where a proxy adds a line of its own.  The walk then starts at the wrong end.

`split_agrees_iff` compares the request as it came with the one whose lines are joined by commas, and
says when the first line is enough.
-/

namespace Roadstead.Identity

/-! ### The lines of a request -/

def forwardedFor : String := "X-Forwarded-For"

def lowerName (name : String) : String := .ofList (name.toList.map Char.toLower)

def upperName (name : String) : String := .ofList (name.toList.map Char.toUpper)

/-- `str.title`; `first` is the case of the next letter. -/
def titleChars (first : Bool) : List Char → List Char
  | [] => []
  | c :: rest =>
      if c.isAlpha then (if first then c.toUpper else c.toLower) :: titleChars false rest
      else c :: titleChars true rest

def titleName (name : String) : String := .ofList (titleChars true name.toList)

/-- Header names are compared without their case. -/
def sameName (a b : String) : Bool := decide (lowerName a = lowerName b)

/-- `headers.get`: the first line of that name. -/
def headersGet (lines : List (String × String)) (name : String) : Option String :=
  (lines.find? fun line => sameName line.1 name).map Prod.snd

/-- `_header`. -/
def header (lines : List (String × String)) (name : String) : String :=
  ([name, lowerName name, titleName name, upperName name].findSome? fun spelling =>
    (headersGet lines spelling).filter fun value => decide (value ≠ "")).getD ""

/-- A request with these header lines. -/
def requestOf (lines : List (String × String)) (client : Option String) : Request :=
  { header := header lines, client := client }

/-- The values of the `X-Forwarded-For` lines, in their order. -/
def forwardedValues (lines : List (String × String)) : List String :=
  (lines.filter fun line => sameName line.1 forwardedFor).map Prod.snd

/-- The same lines, with one line for the whole list. -/
def unite (lines : List (String × String)) : List (String × String) :=
  (forwardedFor, ",".intercalate (forwardedValues lines)) ::
    lines.filter fun line => !sameName line.1 forwardedFor

theorem findSome?_of_forall {A B : Type} {f : A → Option B} {as : List A} {found : Option B}
    (same : ∀ a ∈ as, f a = found) (nonempty : as ≠ []) : as.findSome? f = found := by
  cases found with
  | none => exact List.findSome?_eq_none_iff.mpr same
  | some b =>
      obtain ⟨a, rest, rfl⟩ := List.exists_cons_of_ne_nil nonempty
      rw [List.findSome?_cons, same a List.mem_cons_self]

/-- All spellings are the same name, so the first line is read. -/
theorem header_forwardedFor (lines : List (String × String)) :
    header lines forwardedFor = ((forwardedValues lines).head?).getD "" := by
  have spelled : ∀ spelling ∈ [forwardedFor, lowerName forwardedFor, titleName forwardedFor,
      upperName forwardedFor], lowerName spelling = lowerName forwardedFor := by decide
  have first : ∀ spelling ∈ [forwardedFor, lowerName forwardedFor, titleName forwardedFor,
      upperName forwardedFor], (headersGet lines spelling).filter (fun value => decide (value ≠ "")) =
        (forwardedValues lines).head?.filter fun value => decide (value ≠ "") := by
    intro spelling mem
    rw [headersGet, forwardedValues, List.head?_map, List.head?_filter]
    unfold sameName
    rw [spelled spelling mem]
  rw [header, findSome?_of_forall first (by simp)]
  cases (forwardedValues lines).head? with
  | none => rfl
  | some value =>
      by_cases empty : value = ""
      · rw [empty]
        rfl
      · rw [Option.filter_some, if_pos (decide_eq_true empty)]

theorem forwardedValues_unite (lines : List (String × String)) :
    forwardedValues (unite lines) = [",".intercalate (forwardedValues lines)] := by
  have others : (lines.filter fun line => !sameName line.1 forwardedFor).filter
      (fun line => sameName line.1 forwardedFor) = [] := by
    rw [List.filter_filter, List.filter_eq_nil_iff]
    intro line _
    simp
  have named : sameName forwardedFor forwardedFor = true := decide_eq_true rfl
  rw [forwardedValues, unite, List.filter_cons, if_pos named, others]
  rfl

/-- The hops of the whole list are those of its lines. -/
theorem forwardedChain_intercalate (values : List String) :
    forwardedChain (",".intercalate values) = values.flatMap forwardedChain := by
  induction values with
  | nil => rw [String.intercalate_nil]; rfl
  | cons value values ih =>
      rcases values with - | ⟨next, rest⟩
      · simp
      · rw [String.intercalate_cons_cons, forwardedChain_append, ih]
        rfl

/-! ### Where the walk ends -/

/-- The rightmost hop that is not the address of a trusted proxy. -/
def stop (h : Helpers) (trusted : List Network) (chain : List (List Char)) : Option (List Char) :=
  chain.reverse.find? fun raw => !trustedHop h trusted raw

/-- The hop at which the walk over a chain ends: the one that stops it, or the leftmost. -/
def lastHop (h : Helpers) (trusted : List Network) (chain : List (List Char)) : Option (List Char) :=
  (stop h trusted chain).or chain.head?

/-- The address that `client_address` derives from a chain. -/
def derived (h : Helpers) (trusted : List Network) (peer : String) (chain : List (List Char)) : String :=
  if chain = [] then peer
  else if maxForwardedHops < chain.length then unknownAddress
  else walk h trusted "None" chain.reverse

/-- The first line says of the client what the whole list says.  `first` are its hops, and `later` those
of the other lines. -/
def FirstLineDecides (h : Helpers) (trusted : List Network) (peer : String)
    (first later : List (List Char)) : Prop :=
  later = [] ∨
    if maxForwardedHops < (first ++ later).length then
      maxForwardedHops < first.length ∨ ∃ raw ∈ stop h trusted first, forwardedHop h raw = none
    else
      match stop h trusted later with
      | none => first ≠ [] ∨ ∃ raw ∈ later.head?, forwardedHop h raw = some peer
      | some raw => ∃ raw' ∈ stop h trusted first, forwardedHop h raw' = forwardedHop h raw

section Stop

variable {h : Helpers} {trusted : List Network}

theorem walk_of_stop {rev : List (List Char)} {raw : List Char}
    (stops : (rev.find? fun raw => !trustedHop h trusted raw) = some raw) (hop : String) :
    walk h trusted hop rev = (forwardedHop h raw).getD unknownAddress := by
  induction rev generalizing hop with
  | nil => cases stops
  | cons next rest ih =>
      cases trust : trustedHop h trusted next with
      | false =>
          rw [List.find?_cons_of_pos (by rw [trust]; rfl)] at stops
          obtain rfl := Option.some.inj stops
          rw [walk]
          cases parsed : forwardedHop h next with
          | none => rfl
          | some address =>
              rw [trustedHop, parsed, Option.any_some] at trust
              simp only [trust, Bool.false_eq_true, if_false, Option.getD_some]
      | true =>
          rw [List.find?_cons_of_neg (by simp [trust])] at stops
          obtain ⟨address, -, goes⟩ := walk_of_trusted trust hop rest
          rw [goes, ih stops]

theorem walk_of_all_trusted {rev : List (List Char)} {raw : List Char}
    (all : ∀ next ∈ rev ++ [raw], trustedHop h trusted next = true) (hop : String) :
    ∃ address, forwardedHop h raw = some address ∧ trusts h trusted address = true ∧
      walk h trusted hop (rev ++ [raw]) = address := by
  induction rev generalizing hop with
  | nil =>
      have trust := all raw (by simp)
      obtain ⟨address, parsed, goes⟩ := walk_of_trusted trust hop []
      rw [trustedHop, parsed, Option.any_some] at trust
      exact ⟨address, parsed, trust, goes⟩
  | cons next rest ih =>
      obtain ⟨address, -, goes⟩ := walk_of_trusted (all next (by simp)) hop (rest ++ [raw])
      rw [List.cons_append, goes]
      exact ih (fun next' mem => all next' (List.mem_cons_of_mem _ mem)) address

theorem stop_append (first later : List (List Char)) :
    stop h trusted (first ++ later) = (stop h trusted later).or (stop h trusted first) := by
  rw [stop, List.reverse_append, List.find?_append]
  rfl

/-- Where nothing stops the walk, it ends at a trusted proxy. -/
theorem head_of_stop_none {raw : List Char} {rest : List (List Char)}
    (nothing : stop h trusted (raw :: rest) = none) (hop : String) :
    ∃ address, forwardedHop h raw = some address ∧ trusts h trusted address = true ∧
      walk h trusted hop (raw :: rest).reverse = address := by
  rw [List.reverse_cons]
  refine walk_of_all_trusted (fun next mem => ?_) hop
  rw [stop, List.reverse_cons, List.find?_eq_none] at nothing
  simpa using nothing next mem

theorem walk_eq_lastHop {chain : List (List Char)} (some_hop : chain ≠ []) (hop : String) :
    walk h trusted hop chain.reverse =
      ((lastHop h trusted chain).bind (forwardedHop h)).getD unknownAddress := by
  obtain ⟨raw, rest, rfl⟩ := List.exists_cons_of_ne_nil some_hop
  cases stops : stop h trusted (raw :: rest) with
  | some other =>
      rw [lastHop, stops]
      exact walk_of_stop stops hop
  | none =>
      obtain ⟨address, parsed, -, goes⟩ := head_of_stop_none stops hop
      rw [lastHop, stops, goes]
      simp [parsed]

/-- A hop that stops the walk is not the address of a trusted proxy. -/
theorem untrusted_of_stop {chain : List (List Char)} {raw : List Char} {address : String}
    (stops : stop h trusted chain = some raw) (parsed : forwardedHop h raw = some address) :
    trusts h trusted address = false := by
  have untrusted := List.find?_some stops
  rw [trustedHop, parsed, Option.any_some, Bool.not_eq_true'] at untrusted
  exact untrusted

/-! ### The first line and the whole list -/

theorem ne_unknown_of_trusts (notAddress : h.ipAddress unknownAddress = none) {address : String}
    (trust : trusts h trusted address = true) :
    address ≠ unknownAddress := by
  rintro rfl
  have nowhere : trusts h trusted unknownAddress = false := by
    rw [trusts, notAddress]
    simp
  rw [nowhere] at trust
  cases trust

theorem ne_unknown_of_forwardedHop (shown : ∀ addr, h.showAddress addr ≠ unknownAddress)
    {raw : List Char} {address : String} (parsed : forwardedHop h raw = some address) : address ≠ unknownAddress := by
  obtain ⟨addr, -, rfl⟩ := Option.map_eq_some_iff.mp parsed
  exact shown addr

/-- Two hops give the same answer exactly if they are read alike. -/
theorem getD_forwardedHop_inj (shown : ∀ addr, h.showAddress addr ≠ unknownAddress)
    {raw raw' : List Char} :
    (forwardedHop h raw).getD unknownAddress = (forwardedHop h raw').getD unknownAddress ↔
      forwardedHop h raw = forwardedHop h raw' := by
  refine ⟨fun same => ?_, fun same => by rw [same]⟩
  cases parsed : forwardedHop h raw with
  | none =>
      cases parsed' : forwardedHop h raw' with
      | none => rfl
      | some address' =>
          rw [parsed, parsed'] at same
          exact absurd same.symm (ne_unknown_of_forwardedHop shown parsed')
  | some address =>
      cases parsed' : forwardedHop h raw' with
      | none =>
          rw [parsed, parsed'] at same
          exact absurd same (ne_unknown_of_forwardedHop shown parsed)
      | some address' =>
          rw [parsed, parsed'] at same
          exact congrArg some same

/-- An address that is trusted is not what a hop says that stops the walk. -/
theorem ne_of_stop (notAddress : h.ipAddress unknownAddress = none) {chain : List (List Char)}
    {raw : List Char} {address : String} (stops : stop h trusted chain = some raw) (trust : trusts h trusted address = true) :
    address ≠ (forwardedHop h raw).getD unknownAddress := by
  cases parsed : forwardedHop h raw with
  | none => exact ne_unknown_of_trusts notAddress trust
  | some other =>
      intro same
      obtain rfl : address = other := same
      rw [untrusted_of_stop stops parsed] at trust
      cases trust

theorem derived_split_iff (notAddress : h.ipAddress unknownAddress = none)
    (shown : ∀ addr, h.showAddress addr ≠ unknownAddress) {peer : String}
    (trust : trusts h trusted peer = true) (first later : List (List Char)) :
    derived h trusted peer first = derived h trusted peer (first ++ later) ↔
      FirstLineDecides h trusted peer first later := by
  rcases Decidable.eq_or_ne later [] with rfl | some_later
  · rw [List.append_nil]
    exact iff_of_true rfl (.inl rfl)
  have some_hop : first ++ later ≠ [] := List.append_ne_nil_of_right_ne_nil _ some_later
  rw [FirstLineDecides, or_iff_right some_later, derived.eq_1 h trusted peer (first ++ later),
    if_neg some_hop]
  by_cases many : maxForwardedHops < (first ++ later).length
  · rw [if_pos many, if_pos many, derived]
    rcases Decidable.eq_or_ne first [] with rfl | some_first
    · rw [if_pos rfl]
      refine iff_of_false (ne_unknown_of_trusts notAddress trust) ?_
      rintro (longer | ⟨raw, stops, -⟩)
      · exact absurd longer (Nat.not_lt_zero _)
      · cases stops
    · rw [if_neg some_first]
      by_cases own : maxForwardedHops < first.length
      · rw [if_pos own]
        exact iff_of_true rfl (.inl own)
      · rw [if_neg own, or_iff_right own]
        cases stops : stop h trusted first with
        | some raw =>
            rw [walk_of_stop stops]
            cases parsed : forwardedHop h raw with
            | none => exact iff_of_true rfl ⟨raw, rfl, parsed⟩
            | some address =>
                refine iff_of_false (ne_unknown_of_forwardedHop shown parsed) ?_
                rintro ⟨other, same, unread⟩
                obtain rfl := Option.some.inj same
                rw [parsed] at unread
                cases unread
        | none =>
            obtain ⟨raw, rest, rfl⟩ := List.exists_cons_of_ne_nil some_first
            obtain ⟨address, -, trusted', goes⟩ := head_of_stop_none stops "None"
            rw [goes]
            exact iff_of_false (ne_unknown_of_trusts notAddress trusted') (by simp)
  · have few : ¬maxForwardedHops < first.length := fun longer =>
      many (longer.trans_le (by simp))
    rw [if_neg many, if_neg many, walk_eq_lastHop some_hop, lastHop, stop_append, derived]
    cases stops : stop h trusted later with
    | some raw =>
        simp only [Option.some_or, Option.bind_some]
        rcases Decidable.eq_or_ne first [] with rfl | some_first
        · rw [if_pos rfl]
          exact iff_of_false (ne_of_stop notAddress stops trust) (by simp [stop])
        · rw [if_neg some_first, if_neg few]
          cases stops' : stop h trusted first with
          | some raw' =>
              rw [walk_of_stop stops', getD_forwardedHop_inj shown]
              simp
          | none =>
              obtain ⟨raw', rest, rfl⟩ := List.exists_cons_of_ne_nil some_first
              obtain ⟨address, -, trusted', goes⟩ := head_of_stop_none stops' "None"
              rw [goes]
              exact iff_of_false (ne_of_stop notAddress stops trusted') (by simp)
    | none =>
        rw [Option.none_or]
        rcases Decidable.eq_or_ne first [] with rfl | some_first
        · -- Nothing but trusted proxies, and no hop before them.
          obtain ⟨raw, rest, rfl⟩ := List.exists_cons_of_ne_nil some_later
          obtain ⟨address, parsed, -, -⟩ := head_of_stop_none stops "None"
          simp [stop, parsed, eq_comm]
        · refine iff_of_true ?_ (.inl some_first)
          rw [if_neg some_first, if_neg few, walk_eq_lastHop some_first, lastHop,
            List.head?_append_of_ne_nil _ some_first]

theorem clientAddress_eq_derived {request : Request}
    (trust : trusts h trusted (remoteIp request) = true) :
    clientAddress h trusted request =
      ⟨derived h trusted (remoteIp request) (forwardedChain (request.header forwardedFor)), true⟩ := by
  rw [clientAddress_of_trusted trust, derived]
  show (if forwardedChain (request.header forwardedFor) = [] then _ else if maxForwardedHops <
    (forwardedChain (request.header forwardedFor)).length then _ else _ : ClientAddress) = _
  by_cases nothing : forwardedChain (request.header forwardedFor) = []
  · rw [if_pos nothing, if_pos nothing]
  · rw [if_neg nothing, if_neg nothing]
    by_cases many : maxForwardedHops < (forwardedChain (request.header forwardedFor)).length
    · rw [if_pos many, if_pos many]
    · rw [if_neg many, if_neg many]
      rfl

/-- A request from a trusted proxy is read like the one with its lines joined exactly if the first line
decides. -/
theorem split_agrees_iff (notAddress : h.ipAddress unknownAddress = none)
    (shown : ∀ addr, h.showAddress addr ≠ unknownAddress) (lines : List (String × String))
    (client : Option String) (trust : trusts h trusted (remoteIp (requestOf lines client)) = true) :
    clientAddress h trusted (requestOf lines client) =
        clientAddress h trusted (requestOf (unite lines) client) ↔
      FirstLineDecides h trusted (remoteIp (requestOf lines client))
        (forwardedChain ((forwardedValues lines).head?.getD ""))
        ((forwardedValues lines).tail.flatMap forwardedChain) := by
  have whole : forwardedChain (header (unite lines) forwardedFor) =
      forwardedChain ((forwardedValues lines).head?.getD "") ++
        (forwardedValues lines).tail.flatMap forwardedChain := by
    rw [header_forwardedFor, forwardedValues_unite, List.head?_cons, Option.getD_some,
      forwardedChain_intercalate]
    cases forwardedValues lines <;> rfl
  -- The peer is the same: joining the lines leaves the connection as it is.
  have peer : remoteIp (requestOf (unite lines) client) = remoteIp (requestOf lines client) := by
    rw [remoteIp, remoteIp, requestOf, requestOf]
  have trust' : trusts h trusted (remoteIp (requestOf (unite lines) client)) = true := by rw [peer, trust]
  rw [← derived_split_iff notAddress shown trust, clientAddress_eq_derived trust,
    clientAddress_eq_derived trust', ClientAddress.mk.injEq, and_iff_left rfl, ← whole,
    ← header_forwardedFor, peer]
  rfl

end Stop

/-- An address in dotted decimal has a dot. -/
theorem showAddress_plainHelpers (addr : Address) : plainHelpers.showAddress addr ≠ unknownAddress := by
  intro same
  have dot : '.' ∈ (plainHelpers.showAddress addr).toList := by
    show '.' ∈ (".".intercalate [_, _, _, _]).toList
    simp
  rw [same] at dot
  exact absurd dot (by decide)

/-- The lines of a caller behind two trusted proxies, the nearer of which adds a line. -/
def twoProxies : List (String × String) :=
  [("Host", "llm"), ("x-forwarded-for", "192.0.2.4, 10.0.0.3"), ("X-Forwarded-For", "10.0.0.2")]

theorem split_agrees_two_proxies :
    clientAddress plainHelpers [⟨false, 10 * 2 ^ 24, 8⟩] (requestOf twoProxies (some "10.0.0.1")) =
      clientAddress plainHelpers [⟨false, 10 * 2 ^ 24, 8⟩]
        (requestOf (unite twoProxies) (some "10.0.0.1")) := by
  refine (split_agrees_iff (by decide +kernel) showAddress_plainHelpers twoProxies (some "10.0.0.1")
    (by decide +kernel)).mpr (.inr ?_)
  have trusted : stop plainHelpers [⟨false, 10 * 2 ^ 24, 8⟩]
      ((forwardedValues twoProxies).tail.flatMap forwardedChain) = none := by decide +kernel
  rw [if_neg (by decide +kernel), trusted]
  exact .inl (by decide +kernel)

/-- The caller's line is taken, and not the one that the proxy added. -/
theorem caller_line_is_taken :
    let lines := [("X-Forwarded-For", "127.0.0.1"), ("X-Forwarded-For", "192.0.2.4")]
    clientAddress plainHelpers [⟨false, 10 * 2 ^ 24, 8⟩] (requestOf lines (some "10.0.0.1")) =
        ⟨"127.0.0.1", true⟩ ∧
      clientAddress plainHelpers [⟨false, 10 * 2 ^ 24, 8⟩] (requestOf (unite lines) (some "10.0.0.1")) =
        ⟨"192.0.2.4", true⟩ := by
  decide

end Roadstead.Identity
