import Mathlib.Data.List.Basic
import Mathlib.Data.List.Find
import Roadstead.Identity.Forwarded

/-!
# Which registration of an address counts

`acl.py` keeps the registrations of single addresses in a dictionary and those of networks in a list.
`register` overwrites in the one and appends to the other; `_lookup` takes the first network of the list
that holds the address, and `entries` folds both into one dictionary, whose later writes stand.  The
documented rule is that the later of two registrations wins (`from_env`: *ROADSTEAD_ACL is applied second
and therefore wins a collision*).  It does for addresses, and in the report; for a network the first one
is used (`lawful_iff`).

`decider` reads off the registrations which of them decides an address.  Of `ipaddress` the proofs use
that the text of a registered address is parsed to that address, and that it has no slash.
-/

namespace Roadstead.Identity

/-! ### Registering and reporting -/

namespace Network

/-- `max_prefixlen`. -/
def maxPrefixlen (net : Network) : ℕ := if net.v6 then 128 else 32

/-- The network is one address. -/
def single (net : Network) : Bool := decide (net.prefixlen = net.maxPrefixlen)

/-- `network_address`. -/
def networkAddress (net : Network) : Address := { v6 := net.v6, value := net.value }

end Network

/-- `str` of a network. -/
def showNetwork (h : Helpers) (net : Network) : String :=
  h.showAddress net.networkAddress ++ "/" ++ toString net.prefixlen

/-- A row of `entries`; the source has the name of the priority. -/
structure ShownEntry where
  agentId : String
  priority : LLMPriority
  minTimeoutS : Option ℚ
  deriving DecidableEq

def Registration.shown (reg : Registration) : ShownEntry :=
  ⟨reg.agentId, reg.priority, reg.minTimeoutS⟩

namespace IPIdentityMap

/-- `register`, of a text that is parsed. -/
def add (h : Helpers) (acl : IPIdentityMap) (net : Network) (reg : Registration) : IPIdentityMap :=
  if net.single then { acl with exact := acl.exact.set (h.showAddress net.networkAddress) reg }
  else { acl with subnets := acl.subnets ++ [(net, reg)] }

/-- `register`. -/
def register (h : Helpers) (acl : IPIdentityMap) (ipOrSubnet : String) (reg : Registration) :
    IPIdentityMap :=
  match h.ipNetwork ipOrSubnet with
  | none => acl
  | some net => acl.add h net reg

/-- `entries`. -/
def entries (h : Helpers) (acl : IPIdentityMap) : Dict String ShownEntry :=
  let out := acl.exact.entries.foldl (fun out e => out.set e.1 e.2.shown) ∅
  acl.subnets.foldl (fun out e => out.set (showNetwork h e.1) e.2.shown) out

/-- `identify`. -/
def identify (h : Helpers) (acl : IPIdentityMap) (remoteIp : String) : Option (String × LLMPriority) :=
  (acl.lookup h remoteIp).map fun reg => (reg.agentId, reg.priority)

/-- `priority_declared`. -/
def priorityDeclared (h : Helpers) (acl : IPIdentityMap) (remoteIp : String) : Bool :=
  (acl.lookup h remoteIp).any Registration.priorityDeclared

/-- `min_timeout_s`. -/
def minTimeoutS (h : Helpers) (acl : IPIdentityMap) (remoteIp : String) : Option ℚ :=
  (acl.lookup h remoteIp).bind Registration.minTimeoutS

/-- The map after a sequence of calls of `register`. -/
def registerAll (h : Helpers) (calls : List (String × Registration)) : IPIdentityMap :=
  calls.foldl (fun acl call => acl.register h call.1 call.2) {}

end IPIdentityMap

/-! ### What the registrations say -/

/-- The registrations whose text is parsed. -/
def registered (h : Helpers) (calls : List (String × Registration)) : List (Network × Registration) :=
  calls.filterMap fun call => (h.ipNetwork call.1).map fun net => (net, call.2)

/-- The registration of the network that was made first. -/
def firstFor (regs : List (Network × Registration)) (net : Network) : Option Registration :=
  (regs.find? fun r => decide (r.1 = net)).map Prod.snd

/-- The registration of the network that was made last. -/
def lastFor (regs : List (Network × Registration)) (net : Network) : Option Registration :=
  (regs.reverse.find? fun r => decide (r.1 = net)).map Prod.snd

/-- The key of `entries` for a network. -/
def keyText (h : Helpers) (net : Network) : String :=
  if net.single then h.showAddress net.networkAddress else showNetwork h net

/-- The entry that decides an address: its own, or else the first of those that hold it, if it is no
internal address. -/
def decider (h : Helpers) (regs : List (Network × Registration)) (remoteIp : String) : Option Network :=
  match regs.find? fun r => r.1.single && decide (h.showAddress r.1.networkAddress = remoteIp) with
  | some r => some r.1
  | none =>
      match h.ipAddress remoteIp with
      | none => none
      | some addr =>
          if IPIdentityMap.internalNets.any fun net => net.holds addr then none
          else (regs.find? fun r => !r.1.single && r.1.holds addr).map Prod.fst

/-- The texts of the registered addresses are read back, and have no slash. -/
def Printed (h : Helpers) (regs : List (Network × Registration)) : Prop :=
  ∀ r ∈ regs, h.ipAddress (h.showAddress r.1.networkAddress) = some r.1.networkAddress ∧
    '/' ∉ (h.showAddress r.1.networkAddress).toList

/-- For every address that an entry decides, the last registration of that entry is used, and the report
shows the identity that is used. -/
def Lawful (h : Helpers) (calls : List (String × Registration)) : Prop :=
  let acl := IPIdentityMap.registerAll h calls
  ∀ remoteIp net, decider h (registered h calls) remoteIp = some net →
    ∃ reg, lastFor (registered h calls) net = some reg ∧
      acl.identify h remoteIp = some (reg.agentId, reg.priority) ∧
      acl.priorityDeclared h remoteIp = reg.priorityDeclared ∧
      acl.minTimeoutS h remoteIp = reg.minTimeoutS ∧
      ((acl.entries h).get? (keyText h net)).map (fun shown => (shown.agentId, shown.priority)) =
        acl.identify h remoteIp

/-! ### The map after the calls -/

namespace IPIdentityMap

variable {h : Helpers}

theorem registerAll_eq (calls : List (String × Registration)) :
    registerAll h calls = (registered h calls).foldl (fun acl r => acl.add h r.1 r.2) {} := by
  rw [registered, List.foldl_filterMap, registerAll]
  congr 1
  funext acl call
  unfold register
  cases h.ipNetwork call.1 <;> rfl

/-- The networks stand in the order of their registrations. -/
theorem subnets_foldl_add (regs : List (Network × Registration)) (acl : IPIdentityMap) :
    (regs.foldl (fun acl r => acl.add h r.1 r.2) acl).subnets =
      acl.subnets ++ regs.filter fun r => !r.1.single := by
  induction regs generalizing acl with
  | nil => simp
  | cons r regs ih =>
      rw [List.foldl_cons, ih, add]
      cases single : r.1.single <;> simp [single]

/-- Under the text of an address stands the last of its registrations. -/
theorem exact_foldl_add (regs : List (Network × Registration)) (text : String) (acl : IPIdentityMap) :
    (regs.foldl (fun acl r => acl.add h r.1 r.2) acl).exact.get? text =
      ((regs.reverse.find? fun r =>
        r.1.single && decide (h.showAddress r.1.networkAddress = text)).map Prod.snd).or
        (acl.exact.get? text) := by
  induction regs generalizing acl with
  | nil => rfl
  | cons r regs ih =>
      rw [List.foldl_cons, ih, List.reverse_cons, List.find?_append, Option.map_or, Option.or_assoc]
      congr 1
      rw [add]
      cases single : r.1.single with
      | false => simp [single]
      | true =>
          by_cases here : h.showAddress r.1.networkAddress = text
          · simp [single, here]
          · simp [single, here, Dict.get?_set_of_ne _ (Ne.symm here)]

/-- A key of the report: the last of the networks of that text, or the address. -/
theorem get?_entries (acl : IPIdentityMap) (key : String) :
    (acl.entries h).get? key =
      ((acl.subnets.reverse.find? fun e => decide (showNetwork h e.1 = key)).map fun e => e.2.shown).or
        ((acl.exact.get? key).map Registration.shown) := by
  have addresses : (acl.exact.entries.foldl
      (fun (out : Dict String ShownEntry) e => out.set e.1 e.2.shown) ∅).get? key =
      (acl.exact.get? key).map Registration.shown := by
    refine (Dict.foldl_entries (fun out : Dict String ShownEntry => out.get? key)
      (fun reg _ => some reg.shown) (k := key) (d := acl.exact) ?_ ?_ ∅).trans ?_
    · intro out e _ apart
      exact Dict.get?_set_of_ne _ apart.symm _
    · intro out reg _
      exact Dict.get?_set_self _ _ _
    · cases acl.exact.get? key <;> rfl
  have writes (out : Dict String ShownEntry) (e : Network × Registration) :
      (out.set (showNetwork h e.1) e.2.shown).get? key =
        (if showNetwork h e.1 = key then some e.2.shown else none).or (out.get? key) := by
    by_cases here : showNetwork h e.1 = key
    · rw [if_pos here, here, Dict.get?_set_self, Option.some_or]
    · rw [if_neg here, Dict.get?_set_of_ne _ (Ne.symm here), Option.none_or]
  rw [entries, Dict.get?_foldl_last writes, addresses]
  congr 1
  induction acl.subnets.reverse with
  | nil => rfl
  | cons e rest ih =>
      by_cases here : showNetwork h e.1 = key
      · simp [here]
      · simp [here, ih]

end IPIdentityMap

/-! ### Texts of registered networks -/

section Texts

variable {h : Helpers} {regs : List (Network × Registration)} {r r' : Network × Registration}

theorem Printed.networkAddress_inj (printed : Printed h regs) (mem : r ∈ regs) (mem' : r' ∈ regs)
    (same : h.showAddress r.1.networkAddress = h.showAddress r'.1.networkAddress) :
    r.1.networkAddress = r'.1.networkAddress := by
  have read := (printed r mem).1
  rw [same, (printed r' mem').1] at read
  exact (Option.some.inj read).symm

theorem eq_of_networkAddress {net net' : Network} (same : net.networkAddress = net'.networkAddress)
    (prefixlen : net.prefixlen = net'.prefixlen) : net = net' := by
  obtain ⟨v6, value, len⟩ := net
  obtain ⟨v6', value', len'⟩ := net'
  simp only [Network.networkAddress, Address.mk.injEq, and_true] at same
  obtain ⟨rfl, rfl⟩ := same
  obtain rfl : len = len' := prefixlen
  rfl

/-- A registered address is known by its text. -/
theorem Printed.single_iff (printed : Printed h regs) (mem : r ∈ regs) (mem' : r' ∈ regs)
    (single : r'.1.single = true) :
    (r.1.single && decide (h.showAddress r.1.networkAddress = h.showAddress r'.1.networkAddress)) =
      decide (r.1 = r'.1) := by
  rw [Bool.eq_iff_iff, Bool.and_eq_true, decide_eq_true_eq, decide_eq_true_eq]
  constructor
  · rintro ⟨single', same⟩
    have address := printed.networkAddress_inj mem mem' same
    refine eq_of_networkAddress address ?_
    rw [Network.single, decide_eq_true_eq] at single single'
    have v6 : r.1.v6 = r'.1.v6 := congrArg Address.v6 address
    rw [single, single', Network.maxPrefixlen, Network.maxPrefixlen, v6]
  · intro same
    rw [same]
    exact ⟨single, rfl⟩

theorem toList_showNetwork (h : Helpers) (net : Network) :
    (showNetwork h net).toList =
      (h.showAddress net.networkAddress).toList ++ '/' :: Nat.toDigits 10 net.prefixlen := by
  have digits : (toString net.prefixlen).toList = Nat.toDigits 10 net.prefixlen :=
    String.toList_ofList
  rw [showNetwork, String.toList_append, String.toList_append, digits, List.append_assoc]
  rfl

/-- A registered network is known by its text. -/
theorem Printed.showNetwork_iff (printed : Printed h regs) (mem : r ∈ regs) (mem' : r' ∈ regs) :
    showNetwork h r.1 = showNetwork h r'.1 ↔ r.1 = r'.1 := by
  constructor
  · intro same
    have texts := congrArg String.toList same
    have noSlash : '/' ∉ Nat.toDigits 10 r.1.prefixlen := fun slash => by
      have digit := Nat.isDigit_of_mem_toDigits (by omega) (by omega) slash
      exact absurd digit (by decide)
    rw [toList_showNetwork, toList_showNetwork,
      List.append_cons_inj_of_notMem (printed r mem).2 noSlash] at texts
    obtain ⟨address, -, digits⟩ := texts
    refine eq_of_networkAddress (printed.networkAddress_inj mem mem' (String.toList_inj.mp address)) ?_
    have read := congrArg (fun ds => Nat.ofDigitChars 10 ds 0) digits
    simpa only [Nat.ofDigitChars_ten_toDigits] using read
  · exact congrArg (showNetwork h)

/-- No network has the text of a registered address. -/
theorem Printed.showNetwork_ne (printed : Printed h regs) (mem : r ∈ regs) (net : Network) :
    showNetwork h net ≠ h.showAddress r.1.networkAddress := by
  intro same
  have texts := congrArg String.toList same
  rw [toList_showNetwork] at texts
  exact (printed r mem).2 (texts ▸ by simp)

end Texts

/-! ### Which registration is used -/

section Used

variable {h : Helpers} {calls : List (String × Registration)}

theorem find?_filter_and {A : Type} (p q : A → Bool) (as : List A) :
    (as.filter p).find? q = as.find? fun a => p a && q a := by
  rw [List.find?_filter]
  congr 1
  funext a
  rw [Bool.decide_and, Bool.decide_eq_true, Bool.decide_eq_true]

theorem lastFor_of_mem {regs : List (Network × Registration)} {r : Network × Registration}
    (mem : r ∈ regs) : ∃ reg, lastFor regs r.1 = some reg := by
  have found : (regs.reverse.find? fun r' => decide (r'.1 = r.1)).isSome := by
    rw [List.find?_isSome]
    exact ⟨r, List.mem_reverse.mpr mem, decide_eq_true rfl⟩
  obtain ⟨last, there⟩ := Option.isSome_iff_exists.mp found
  exact ⟨last.2, by rw [lastFor, there, Option.map_some]⟩

/-- What decides an address is registered. -/
theorem mem_of_decider {regs : List (Network × Registration)} {remoteIp : String} {net : Network}
    (decides : decider h regs remoteIp = some net) : ∃ r ∈ regs, r.1 = net := by
  unfold decider at decides
  split at decides
  · rename_i r found
    obtain rfl := Option.some.inj decides
    exact ⟨r, List.mem_of_find?_eq_some found, rfl⟩
  · split at decides
    · cases decides
    · split at decides
      · cases decides
      · obtain ⟨r, found, same⟩ := Option.map_eq_some_iff.mp decides
        exact ⟨r, List.mem_of_find?_eq_some found, same⟩

/-- Under the text of a registered address stands its last registration. -/
theorem exact_of_single (printed : Printed h (registered h calls)) {r : Network × Registration}
    (mem : r ∈ registered h calls) (single : r.1.single = true) :
    (IPIdentityMap.registerAll h calls).exact.get? (h.showAddress r.1.networkAddress) =
      lastFor (registered h calls) r.1 := by
  rw [IPIdentityMap.registerAll_eq, IPIdentityMap.exact_foldl_add, lastFor]
  have same := List.find?_congr fun r' (mem' : r' ∈ (registered h calls).reverse) =>
    printed.single_iff (List.mem_reverse.mp mem') mem single
  rw [same]
  exact Option.or_none

/-- An address is served under the last registration of the address, or under the first of the network
that decides it. -/
theorem lookup_of_decider (printed : Printed h (registered h calls)) {remoteIp : String} {net : Network}
    (decides : decider h (registered h calls) remoteIp = some net) :
    (IPIdentityMap.registerAll h calls).lookup h remoteIp =
      if net.single then lastFor (registered h calls) net else firstFor (registered h calls) net := by
  unfold decider at decides
  split at decides
  · rename_i r found
    obtain rfl := Option.some.inj decides
    have mem := List.mem_of_find?_eq_some found
    obtain ⟨single, rfl⟩ : r.1.single = true ∧ h.showAddress r.1.networkAddress = remoteIp := by
      simpa using List.find?_some found
    obtain ⟨reg, last⟩ := lastFor_of_mem mem
    rw [if_pos single, IPIdentityMap.lookup, exact_of_single printed mem single, last]
  · rename_i noAddress
    have unlisted : (IPIdentityMap.registerAll h calls).exact.get? remoteIp = none := by
      rw [IPIdentityMap.registerAll_eq, IPIdentityMap.exact_foldl_add]
      have nobody : ((registered h calls).reverse.find? fun r =>
          r.1.single && decide (h.showAddress r.1.networkAddress = remoteIp)) = none := by
        rw [List.find?_eq_none] at noAddress ⊢
        exact fun r mem => noAddress r (List.mem_reverse.mp mem)
      rw [nobody]
      rfl
    split at decides
    · cases decides
    · rename_i addr parsed
      split at decides
      · cases decides
      · rename_i outside
        obtain ⟨r, found, rfl⟩ := Option.map_eq_some_iff.mp decides
        obtain ⟨holds, before, after, split, earlier⟩ := List.find?_eq_some_iff_append.mp found
        have network : r.1.single = false := by
          rw [Bool.and_eq_true, Bool.not_eq_true'] at holds
          exact holds.1
        have listed : ((IPIdentityMap.registerAll h calls).subnets.find? fun e => e.1.holds addr) =
            some r := by
          rw [IPIdentityMap.registerAll_eq, IPIdentityMap.subnets_foldl_add]
          show ((registered h calls).filter _).find? _ = some r
          rw [find?_filter_and]
          exact found
        -- A network of that text before `r` would hold the address as well.
        have first : ((registered h calls).find? fun r' => decide (r'.1 = r.1)) = some r := by
          refine List.find?_eq_some_iff_append.mpr ⟨decide_eq_true rfl, before, after, split, ?_⟩
          intro r' mem
          have other := earlier r' mem
          rw [Bool.not_eq_true'] at other ⊢
          refine decide_eq_false fun same => ?_
          rw [same, holds] at other
          cases other
        rw [network, IPIdentityMap.lookup, unlisted, parsed]
        simp only [if_neg outside, listed, firstFor, first]
        rfl

/-- The report shows the last registration. -/
theorem entries_of_registered (printed : Printed h (registered h calls)) {r : Network × Registration}
    (mem : r ∈ registered h calls) :
    ((IPIdentityMap.registerAll h calls).entries h).get? (keyText h r.1) =
      (lastFor (registered h calls) r.1).map Registration.shown := by
  have networks : (IPIdentityMap.registerAll h calls).subnets =
      (registered h calls).filter fun r => !r.1.single := by
    rw [IPIdentityMap.registerAll_eq, IPIdentityMap.subnets_foldl_add]
    rfl
  rw [IPIdentityMap.get?_entries, networks, ← List.filter_reverse, find?_filter_and, keyText]
  cases single : r.1.single with
  | true =>
      rw [if_pos rfl, exact_of_single printed mem single]
      have nobody : ((registered h calls).reverse.find? fun r' => !r'.1.single &&
          decide (showNetwork h r'.1 = h.showAddress r.1.networkAddress)) = none := by
        rw [List.find?_eq_none]
        intro r' _
        simp [printed.showNetwork_ne mem r'.1]
      rw [nobody]
      rfl
  | false =>
      rw [if_neg (by simp)]
      have same : ((registered h calls).reverse.find? fun r' =>
            !r'.1.single && decide (showNetwork h r'.1 = showNetwork h r.1)) =
          (registered h calls).reverse.find? fun r' => decide (r'.1 = r.1) := by
        refine List.find?_congr fun r' mem' => ?_
        rw [Bool.eq_iff_iff, Bool.and_eq_true, decide_eq_true_eq, decide_eq_true_eq,
          printed.showNetwork_iff (List.mem_reverse.mp mem') mem]
        refine and_iff_right_of_imp fun here => ?_
        rw [here, single]
        rfl
      obtain ⟨reg, last⟩ := lastFor_of_mem mem
      rw [same]
      rw [lastFor] at last ⊢
      obtain ⟨r', found, rfl⟩ := Option.map_eq_some_iff.mp last
      rw [found]
      rfl

/-- The later registration wins, and the report agrees, exactly if every network that decides an address
was first registered as it was last. -/
theorem later_registration_wins_iff (printed : Printed h (registered h calls)) :
    Lawful h calls ↔ ∀ remoteIp net, decider h (registered h calls) remoteIp = some net →
      net.single = false → firstFor (registered h calls) net = lastFor (registered h calls) net := by
  constructor
  · intro lawful remoteIp net decides network
    obtain ⟨last, there, identity, declared, floor, -⟩ := lawful remoteIp net decides
    obtain ⟨r, mem, rfl⟩ := mem_of_decider decides
    have used := lookup_of_decider printed decides
    rw [network, if_neg (by simp)] at used
    rw [IPIdentityMap.identify, used, Option.map_eq_some_iff] at identity
    obtain ⟨first, here, same⟩ := identity
    rw [IPIdentityMap.priorityDeclared, used, here, Option.any_some] at declared
    rw [IPIdentityMap.minTimeoutS, used, here, Option.bind_some] at floor
    rw [here, there]
    obtain ⟨agentId, priority⟩ := Prod.mk.injEq .. ▸ same
    obtain ⟨a, b, c, d⟩ := first
    obtain ⟨a', b', c', d'⟩ := last
    congr
  · intro agree remoteIp net decides
    obtain ⟨r, mem, rfl⟩ := mem_of_decider decides
    obtain ⟨last, there⟩ := lastFor_of_mem mem
    have used : (IPIdentityMap.registerAll h calls).lookup h remoteIp = some last := by
      rw [lookup_of_decider printed decides]
      cases network : r.1.single with
      | true => exact there
      | false => exact (agree remoteIp r.1 decides network).trans there
    refine ⟨last, there, ?_, ?_, ?_, ?_⟩
    · rw [IPIdentityMap.identify, used, Option.map_some]
    · rw [IPIdentityMap.priorityDeclared, used, Option.any_some]
    · rw [IPIdentityMap.minTimeoutS, used, Option.bind_some]
    · rw [entries_of_registered printed mem, there, IPIdentityMap.identify, used]
      rfl

end Used

/-- An IPv4 network in dotted decimal, host bits dropped. -/
def dottedNetwork (text : String) : Option Network :=
  match text.toList.splitOn '/' with
  | [address] => (dottedQuad (.ofList address)).map fun addr => ⟨false, addr.value, 32⟩
  | [address, digits] =>
      let len := digits.foldl (fun n c => 10 * n + (c.toNat - '0'.toNat)) 0
      if digits ≠ [] ∧ digits.all Char.isDigit = true ∧ len ≤ 32 then
        (dottedQuad (.ofList address)).map fun addr =>
          ⟨false, addr.value / 2 ^ (32 - len) * 2 ^ (32 - len), len⟩
      else none
  | _ => none

/-- Helpers that know IPv4 networks. -/
def networkHelpers : Helpers := { plainHelpers with ipNetwork := dottedNetwork }

/-- An address is registered twice, a network once. -/
def addressTwice : List (String × Registration) :=
  [("10.0.0.9", { agentId := "old", priority := .p3Ingestion }),
    ("10.0.0.0/8", { agentId := "lan", priority := .p4Hygiene, minTimeoutS := some 1800 }),
    ("10.0.0.9", { agentId := "new", priority := .p2PostTurn, priorityDeclared := true })]

/-- A network is registered twice, as by the older and the newer variable. -/
def networkTwice : List (String × Registration) :=
  [("10.0.0.0/8", { agentId := "old", priority := .p3Ingestion }),
    ("10.0.0.0/8", { agentId := "new", priority := .p3Ingestion })]

theorem later_registration_wins_address : Lawful networkHelpers addressTwice := by
  have printed : Printed networkHelpers (registered networkHelpers addressTwice) := by
    unfold Printed
    decide +kernel
  have lan : ∀ r ∈ registered networkHelpers addressTwice,
      r.1.single = false → r.1 = ⟨false, 10 * 2 ^ 24, 8⟩ := by decide +kernel
  refine (later_registration_wins_iff printed).mpr fun remoteIp net decides network => ?_
  obtain ⟨r, mem, rfl⟩ := mem_of_decider decides
  have address : networkHelpers.ipNetwork "10.0.0.9" = some ⟨false, 10 * 2 ^ 24 + 9, 32⟩ := by
    decide +kernel
  have net : networkHelpers.ipNetwork "10.0.0.0/8" = some ⟨false, 10 * 2 ^ 24, 8⟩ := by
    decide +kernel
  rw [lan r mem network]
  simp [registered, addressTwice, address, net, firstFor, lastFor]

/-- The first registration of the network is used, and the report shows the second. -/
theorem first_network_is_used :
    (IPIdentityMap.registerAll networkHelpers networkTwice).identify networkHelpers "10.1.2.3" =
        some ("old", .p3Ingestion) ∧
      ((IPIdentityMap.registerAll networkHelpers networkTwice).entries networkHelpers).get? "10.0.0.0/8" =
        some ⟨"new", .p3Ingestion, none⟩ ∧
      ¬Lawful networkHelpers networkTwice := by
  have used : (IPIdentityMap.registerAll networkHelpers networkTwice).identify networkHelpers "10.1.2.3" =
      some ("old", .p3Ingestion) := by decide +kernel
  refine ⟨used, by decide +kernel, fun lawful => ?_⟩
  obtain ⟨reg, last, identity, -⟩ := lawful "10.1.2.3" ⟨false, 10 * 2 ^ 24, 8⟩ (by decide +kernel)
  have new : (lastFor (registered networkHelpers networkTwice) ⟨false, 10 * 2 ^ 24, 8⟩).map
      Registration.agentId = some "new" := by decide +kernel
  rw [used, Option.some.injEq, Prod.mk.injEq] at identity
  rw [last, Option.map_some, ← identity.1] at new
  exact absurd new (by decide)

end Roadstead.Identity
