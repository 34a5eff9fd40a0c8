import Roadstead.Identity

/-!
# The address of a client

`forwarded_not_spoofed`: what a client writes in front of an `X-Forwarded-For` value does not move the
address that `client_address` derives from it, as long as some hop of the value is not a trusted proxy.
The walk starts at the right end, and it stops in the value: a hop that is no address stops it as one
that is not trusted does.
-/

namespace Roadstead.Identity

/-- A hop is the address of a trusted proxy. -/
def trustedHop (h : Helpers) (trusted : List Network) (raw : List Char) : Bool :=
  (forwardedHop h raw).any (trusts h trusted)

/-- A request with another `X-Forwarded-For`. -/
def Request.forwarding (request : Request) (value : String) : Request :=
  { request with header := fun name => if name = "X-Forwarded-For" then value else request.header name }

section Walk

variable {h : Helpers} {trusted : List Network}

theorem walk_of_untrusted {raw : List Char} (untrusted : trustedHop h trusted raw = false) (hop : String)
    (rest rest' : List (List Char)) : walk h trusted hop (raw :: rest) = walk h trusted hop (raw :: rest') := by
  unfold walk
  cases parsed : forwardedHop h raw with
  | none => rfl
  | some address =>
      rw [trustedHop, parsed, Option.any_some] at untrusted
      simp only [untrusted, Bool.false_eq_true, if_false]

theorem walk_of_trusted {raw : List Char} (trust : trustedHop h trusted raw = true) (hop : String)
    (rest : List (List Char)) :
    ∃ address, forwardedHop h raw = some address ∧
      walk h trusted hop (raw :: rest) = walk h trusted address rest := by
  cases parsed : forwardedHop h raw with
  | none =>
      rw [trustedHop, parsed] at trust
      cases trust
  | some address =>
      rw [trustedHop, parsed, Option.any_some] at trust
      refine ⟨address, rfl, ?_⟩
      rw [walk, parsed]
      simp only [trust, if_true]

/-- The walk does not go past a hop that is not trusted. -/
theorem walk_append {chain : List (List Char)} (untrusted : ∃ raw ∈ chain, trustedHop h trusted raw = false)
    (hop : String) (rest : List (List Char)) :
    walk h trusted hop (chain ++ rest) = walk h trusted hop chain := by
  induction chain generalizing hop with
  | nil =>
      obtain ⟨raw, mem, -⟩ := untrusted
      cases mem
  | cons first chain ih =>
      cases trust : trustedHop h trusted first with
      | false => exact walk_of_untrusted trust hop (chain ++ rest) chain
      | true =>
          obtain ⟨raw, mem, other⟩ := untrusted
          have later : ∃ raw ∈ chain, trustedHop h trusted raw = false := by
            rcases List.mem_cons.mp mem with rfl | there
            · rw [trust] at other
              cases other
            · exact ⟨raw, there, other⟩
          obtain ⟨address, parsed, goes⟩ := walk_of_trusted trust hop (chain ++ rest)
          obtain ⟨address', parsed', goes'⟩ := walk_of_trusted trust hop chain
          rw [parsed] at parsed'
          cases parsed'
          rw [List.cons_append, goes, goes', ih later]

end Walk

/-- The chain of a value that a client wrote in front of another. -/
theorem forwardedChain_append (p v : String) :
    forwardedChain (p ++ "," ++ v) = forwardedChain p ++ forwardedChain v := by
  have text : (p ++ "," ++ v).toList = p.toList ++ ',' :: v.toList := by
    rw [String.toList_append, String.toList_append, List.append_assoc]
    rfl
  rw [forwardedChain, text, List.splitOn_append_cons_self, List.filter_append, forwardedChain, forwardedChain]

/-- The peer is not trusted if no proxy is. -/
theorem clientAddress_of_trusted {h : Helpers} {trusted : List Network} {request : Request}
    (trust : trusts h trusted (remoteIp request) = true) :
    clientAddress h trusted request =
      if forwardedChain (request.header "X-Forwarded-For") = [] then
        { ip := remoteIp request, forwarded := true }
      else if maxForwardedHops < (forwardedChain (request.header "X-Forwarded-For")).length then
        { ip := unknownAddress, forwarded := true }
      else
        { ip := walk h trusted "None" (forwardedChain (request.header "X-Forwarded-For")).reverse
          forwarded := true } := by
  have some_trusted : trusted ≠ [] := by
    rintro rfl
    cases trust
  have read : ¬(trusted = [] ∨ trusts h trusted (remoteIp request) = false) := by
    rintro (none_there | other)
    · exact some_trusted none_there
    · rw [trust] at other
      cases other
  rw [clientAddress, if_neg read]

/-- **A forwarded address is not spoofed.**  Whatever a client writes in front of a value with a hop that
is no trusted proxy, the address is the one of the value, unless there are too many hops; a peer that
is not trusted is the address itself, and what a trusted one sends is forwarded. -/
theorem forwarded_not_spoofed (h : Helpers) (trusted : List Network) (request : Request) :
    (∀ p v : String, (∃ raw ∈ forwardedChain v, trustedHop h trusted raw = false) →
      clientAddress h trusted (request.forwarding (p ++ "," ++ v)) =
        if trusts h trusted (remoteIp request) = true ∧
            maxForwardedHops < (forwardedChain (p ++ "," ++ v)).length then
          { ip := unknownAddress, forwarded := true }
        else clientAddress h trusted (request.forwarding v)) ∧
    (trusts h trusted (remoteIp request) = false → ∀ value,
      clientAddress h trusted (request.forwarding value) = { ip := remoteIp request }) ∧
    (trusts h trusted (remoteIp request) = true → ∀ value,
      (clientAddress h trusted (request.forwarding value)).forwarded = true) := by
  have peer : trusts h trusted (remoteIp request) = false → ∀ value,
      clientAddress h trusted (request.forwarding value) = { ip := remoteIp request } := by
    intro untrusted value
    exact if_pos (.inr untrusted)
  refine ⟨fun p v untrusted => ?_, peer, fun trust value => ?_⟩
  · cases trust : trusts h trusted (remoteIp request) with
    | false => simp only [Bool.false_eq_true, false_and, if_false, peer trust]
    | true =>
        obtain ⟨raw, mem, other⟩ := untrusted
        have chain := forwardedChain_append p v
        have some_hop : forwardedChain v ≠ [] := List.ne_nil_of_mem mem
        have some_hops : forwardedChain p ++ forwardedChain v ≠ [] :=
          List.append_ne_nil_of_right_ne_nil _ some_hop
        have longer : (forwardedChain v).length ≤ (forwardedChain p ++ forwardedChain v).length := by
          rw [List.length_append]
          exact Nat.le_add_left _ _
        have stops : walk h trusted "None" (forwardedChain p ++ forwardedChain v).reverse =
            walk h trusted "None" (forwardedChain v).reverse := by
          rw [List.reverse_append]
          exact walk_append ⟨raw, List.mem_reverse.mpr mem, other⟩ _ _
        rw [clientAddress_of_trusted (by exact trust), clientAddress_of_trusted (by exact trust)]
        simp only [Request.forwarding, if_true, true_and, chain, if_neg some_hop, if_neg some_hops, stops]
        by_cases many : maxForwardedHops < (forwardedChain p ++ forwardedChain v).length
        · simp only [if_pos many]
        · simp only [if_neg many, if_neg fun longer' => many (Nat.lt_of_lt_of_le longer' longer)]
  · rw [clientAddress_of_trusted (by exact trust)]
    split
    · rfl
    split <;> rfl

/-- An IPv4 address in dotted decimal. -/
def dottedQuad (text : String) : Option Address :=
  let octets := (text.toList.splitOn '.').map fun part =>
    if part ≠ [] ∧ part.all Char.isDigit = true ∧ (part.head? ≠ some '0' ∨ part = ['0']) then
      let n := part.foldl (fun n c => 10 * n + (c.toNat - '0'.toNat)) 0
      if n ≤ 255 then some n else none
    else none
  match octets with
  | [some a, some b, some c, some d] => some { v6 := false, value := ((a * 256 + b) * 256 + c) * 256 + d }
  | _ => none

/-- Helpers that know IPv4 and the digests of two texts. -/
def plainHelpers : Helpers where
  digest text :=
    if text = "rs-alpha" then "01c005d02b487b6b7107350a6e2df73dcd4542ca41b5ca5abe70f84f921a0168"
    else if text = "rs-beta" then "c99d6c4a645686d41c9fd49bd6e5aab9145b826360ecb9f799c2f21c732fa5d1"
    else ""
  decode _ := none
  ipAddress := dottedQuad
  ipNetwork text := (dottedQuad text).map fun addr => { v6 := false, value := addr.value, prefixlen := 32 }
  showAddress addr := ".".intercalate ([24, 16, 8, 0].map fun shift => toString (addr.value / 2 ^ shift % 256))
  upper text := .ofList (text.toList.map Char.toUpper)
  repr text := "'" ++ text ++ "'"
  isoTime _ := "an unknown time"

/-- A request from a proxy at 10.0.0.1. -/
def proxied : Request := { header := fun _ => "", client := some "10.0.0.1" }

theorem forwarded_not_spoofed_proxied :
    clientAddress plainHelpers [⟨false, 10 * 2 ^ 24, 8⟩]
        (proxied.forwarding ("127.0.0.1, junk" ++ "," ++ "192.0.2.4, 10.0.0.2")) =
      if trusts plainHelpers [⟨false, 10 * 2 ^ 24, 8⟩] (remoteIp proxied) = true ∧
          maxForwardedHops < (forwardedChain ("127.0.0.1, junk" ++ "," ++ "192.0.2.4, 10.0.0.2")).length then
        { ip := unknownAddress, forwarded := true }
      else clientAddress plainHelpers [⟨false, 10 * 2 ^ 24, 8⟩] (proxied.forwarding "192.0.2.4, 10.0.0.2") :=
  (forwarded_not_spoofed plainHelpers [⟨false, 10 * 2 ^ 24, 8⟩] proxied).1 "127.0.0.1, junk"
    "192.0.2.4, 10.0.0.2" ⟨"192.0.2.4".toList, by decide, by decide⟩

end Roadstead.Identity
