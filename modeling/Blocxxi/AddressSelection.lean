import Blocxxi.ByteText
import Blocxxi.OrderedMap
import Mathlib.Data.List.Induction
import Mathlib.Data.List.Lex

/-!
# Selecting an address

The addresses of the network interfaces are walked in one pass, in the order of
the interfaces' names.  An external IPv4 address ends the pass, and so does an
interface that has shown an IPv4 and an IPv6 address.  The documentation ranks
the addresses of the whole enumeration; the pass realises the ranking unless an
interface with both kinds of addresses stands in front of the first external
address, or only loopback addresses are there and the first of them is the
one of IPv6.
-/

namespace Blocxxi

namespace PortMapping

open ByteText

structure Ipv4 where
  first : UInt8
  second : UInt8
  third : UInt8
  fourth : UInt8
  deriving DecidableEq

abbrev dot : UInt8 := 46

/-- The text of an IPv4 address, as `inet_ntop` prints it. -/
def Ipv4.dotted (address : Ipv4) : ByteString :=
  decimal address.first.toNat ++ dot :: (decimal address.second.toNat ++
    dot :: (decimal address.third.toNat ++ dot :: decimal address.fourth.toNat))

theorem Ipv4.dotted_ne_nil (address : Ipv4) : address.dotted ≠ [] :=
  List.append_ne_nil_of_right_ne_nil _ (List.cons_ne_nil _ _)

/-- An address of an interface.  Of an IPv6 address only the text matters, and it may
be any; whatever is neither is passed over. -/
inductive InterfaceAddress
  | v4 (address : Ipv4)
  | v6 (text : ByteString)
  | other

def toLower (byte : UInt8) : UInt8 :=
  if 65 ≤ byte && byte ≤ 90 then byte + 32 else byte

def isLoopback (address : ByteString) (ipv6 : Bool) : Bool :=
  address == if ipv6 then ascii "::1" else ascii "127.0.0.1"

def isLocal (address : ByteString) (ipv6 : Bool) : Bool :=
  if isLoopback address ipv6 then true
  else if ipv6 then (address.map toLower).take 4 == ascii "fe80"
  else if address.take 3 == ascii "10." then true
  else if address.take 8 == ascii "192.168." then true
  else if address.take 8 == ascii "169.254." then true
  else
    let sub := address.take 7
    sub == ascii "172.16" || sub == ascii "172.17" || sub == ascii "172.18"

/-- An enumerated address.  The flags are those that the text has. -/
structure AddressInfo where
  value : ByteString
  isLoopback : Bool
  isExternal : Bool
  isV4 : Bool
  loopback_eq : isLoopback = PortMapping.isLoopback value (!isV4)
  external_eq : isExternal = !isLocal value (!isV4)
  dotted : isV4 = true → ∃ address : Ipv4, value = address.dotted

def addressInfo : InterfaceAddress → Option AddressInfo
  | .v4 address =>
      some
        { value := address.dotted
          isLoopback := isLoopback address.dotted false
          isExternal := !isLocal address.dotted false
          isV4 := true
          loopback_eq := rfl
          external_eq := rfl
          dotted := fun _ => ⟨address, rfl⟩ }
  | .v6 text =>
      some
        { value := text
          isLoopback := isLoopback text true
          isExternal := !isLocal text true
          isV4 := false
          loopback_eq := rfl
          external_eq := rfl
          dotted := fun isV4 => absurd isV4 Bool.false_ne_true }
  | .other => none

abbrev InterfaceName := ByteString

abbrev Interfaces := OrderedMap InterfaceName (List AddressInfo)

def addAddress (interfaces : Interfaces) (entry : ByteString × InterfaceAddress) :
    Interfaces :=
  match addressInfo entry.2 with
  | none => interfaces
  | some info => interfaces.alter entry.1 fun stored => stored.getD [] ++ [info]

/-- The addresses of all interfaces, by name. -/
def collect (entries : List (ByteString × InterfaceAddress)) : Interfaces :=
  entries.foldl addAddress OrderedMap.empty

/-- The loop over the addresses of an interface: the address that is selected then, and
whether it is definitely found. -/
def selectAddress : List AddressInfo → Bool → Bool → ByteString → ByteString × Bool
  | [], _, _, selected => (selected, false)
  | info :: rest, hasV4, hasV6, selected =>
      if info.isExternal && info.isV4 then (info.value, true)
      else if info.isLoopback then
        selectAddress rest hasV4 hasV6
          (if selected = [] then info.value else selected)
      else
        let (hasV4, hasV6, selected) :=
          if info.isV4 then (true, hasV6, info.value) else (hasV4, true, selected)
        if hasV4 && hasV6 then (selected, true)
        else selectAddress rest hasV4 hasV6 selected

def selectBest : List (List AddressInfo) → ByteString → ByteString
  | [], selected => selected
  | addresses :: rest, selected =>
      let (selected, definitelyFound) := selectAddress addresses false false selected
      if definitelyFound then selected else selectBest rest selected

/-- The selected address; without an enumeration, none. -/
def findBestAddress (entries : Option (List (ByteString × InterfaceAddress))) :
    ByteString :=
  match entries with
  | none => []
  | some entries => selectBest ((collect entries).entries.map Prod.snd) []

namespace AddressInfo

/-- An address that can be reached from outside. -/
def external (info : AddressInfo) : Bool := info.isExternal && info.isV4

def plainV4 (info : AddressInfo) : Bool := info.isV4 && !info.isLoopback

def plainV6 (info : AddressInfo) : Bool := !info.isV4 && !info.isLoopback

end AddressInfo

open AddressInfo

/-- The interface has both an IPv4 and an IPv6 address, loopback apart. -/
def dual (addresses : List AddressInfo) : Bool :=
  addresses.any plainV4 && addresses.any plainV6

/-- The documented ranking over the interfaces. -/
structure Ranked (interfaces : List (List AddressInfo)) (selected : ByteString) :
    Prop where
  external : interfaces.flatten.any external = true →
    ∃ info ∈ interfaces.flatten, info.external = true ∧ selected = info.value
  dual : interfaces.flatten.any AddressInfo.external = false →
    interfaces.any PortMapping.dual = true →
      ∃ addresses ∈ interfaces, PortMapping.dual addresses = true ∧
        ∃ info ∈ addresses, info.plainV4 = true ∧ selected = info.value
  plain : interfaces.flatten.any AddressInfo.external = false →
    interfaces.any PortMapping.dual = false →
      interfaces.flatten.any plainV4 = true →
        ∃ info ∈ interfaces.flatten, info.plainV4 = true ∧ selected = info.value
  loopback : interfaces.flatten.any plainV4 = false →
    interfaces.flatten.any AddressInfo.isV4 = true → selected = ascii "127.0.0.1"
  none : interfaces.flatten.any AddressInfo.isV4 = false → selected = []

/-- The addresses that the pass sees before the first external one. -/
def untilExternal : List (List AddressInfo) → List (List AddressInfo)
  | [] => []
  | addresses :: rest =>
      if addresses.any external then
        [addresses.takeWhile fun info => !info.external]
      else addresses :: untilExternal rest

/-- Nothing that the pass sees leads it away from the ranking. -/
structure Unmisled (interfaces : List (List AddressInfo)) : Prop where
  external : interfaces.flatten.any external = true →
    ∀ addresses ∈ untilExternal interfaces, dual addresses = false
  loopback : interfaces.flatten.any plainV4 = false →
    ∀ info, interfaces.flatten.find? AddressInfo.isLoopback = some info →
      info.isV4 = true

section Flags

variable (info : AddressInfo)

theorem external_eq_false_of_isLoopback (loopback : info.isLoopback = true) :
    info.external = false := by
  have isLocalToo : isLocal info.value (!info.isV4) = true := by
    rw [info.loopback_eq] at loopback
    rw [isLocal, if_pos loopback]
  rw [AddressInfo.external, info.external_eq, isLocalToo]
  rfl

theorem plainV4_of_external (isExternal : info.external = true) :
    info.plainV4 = true := by
  have notLoopback : info.isLoopback = false := by
    by_contra loopback
    rw [external_eq_false_of_isLoopback info (by simpa using loopback)] at isExternal
    cases isExternal
  have isV4 : info.isV4 = true := (Bool.and_eq_true_iff.mp isExternal).2
  rw [plainV4, isV4, notLoopback]
  rfl

theorem value_of_isLoopback (loopback : info.isLoopback = true) :
    info.value = if info.isV4 then ascii "127.0.0.1" else ascii "::1" := by
  have isValue : isLoopback info.value (!info.isV4) = true :=
    info.loopback_eq ▸ loopback
  rw [isLoopback, beq_iff_eq] at isValue
  rw [isValue]
  cases info.isV4 <;> rfl

theorem value_ne_nil_of_isLoopback (loopback : info.isLoopback = true) :
    info.value ≠ [] := by
  rw [value_of_isLoopback info loopback]
  split <;> decide

theorem value_ne_nil_of_plainV4 (isPlain : info.plainV4 = true) : info.value ≠ [] := by
  obtain ⟨address, isDotted⟩ := info.dotted (Bool.and_eq_true_iff.mp isPlain).1
  rw [isDotted]
  exact address.dotted_ne_nil

/-- Of the IPv4 addresses, the text tells the external ones. -/
theorem external_of_value {info other : AddressInfo} (isV4 : info.isV4 = true)
    (isExternal : other.external = true) (same : info.value = other.value) :
    info.external = true := by
  obtain ⟨flag, otherV4⟩ := Bool.and_eq_true_iff.mp isExternal
  rw [other.external_eq, otherV4] at flag
  rw [AddressInfo.external, info.external_eq, isV4, same, flag]
  rfl

end Flags

/-- What is selected after an address that does not end the pass. -/
def keep (selected : ByteString) (info : AddressInfo) : ByteString :=
  if info.isLoopback then if selected = [] then info.value else selected
  else if info.isV4 then info.value
  else selected

theorem keep_of_plainV4 {info : AddressInfo} (isPlain : info.plainV4 = true)
    (selected : ByteString) : keep selected info = info.value := by
  obtain ⟨isV4, notLoopback⟩ := Bool.and_eq_true_iff.mp isPlain
  rw [keep, if_neg (by simpa using notLoopback), if_pos isV4]

/-- Every other address leaves what is selected. -/
theorem keep_of_not_plainV4 {info : AddressInfo} (notPlain : info.plainV4 = false)
    {selected : ByteString} (nonempty : selected ≠ []) : keep selected info = selected := by
  unfold keep
  by_cases loopback : info.isLoopback = true
  · rw [if_pos loopback, if_neg nonempty]
  · rw [if_neg loopback, if_neg fun isV4 => by simp [plainV4, isV4, loopback] at notPlain]

/-- Without plain IPv4 addresses, what is selected stays. -/
theorem foldl_keep_selected {addresses : List AddressInfo}
    (noPlain : addresses.any plainV4 = false) {selected : ByteString}
    (nonempty : selected ≠ []) : addresses.foldl keep selected = selected := by
  induction addresses with
  | nil => rfl
  | cons info rest induction =>
      rw [List.any_cons, Bool.or_eq_false_iff] at noPlain
      rw [List.foldl_cons, keep_of_not_plainV4 noPlain.1 nonempty,
        induction noPlain.2]

/-- A plain IPv4 address, if there is one, is kept. -/
theorem foldl_keep_plain {addresses : List AddressInfo}
    (somePlain : addresses.any plainV4 = true) (selected : ByteString) :
    ∃ info ∈ addresses, info.plainV4 = true ∧
      addresses.foldl keep selected = info.value := by
  induction addresses generalizing selected with
  | nil => cases somePlain
  | cons info rest induction =>
      rw [List.foldl_cons]
      by_cases restPlain : rest.any plainV4 = true
      · obtain ⟨other, member, isPlain, kept⟩ := induction restPlain (keep selected info)
        exact ⟨other, List.mem_cons_of_mem _ member, isPlain, kept⟩
      · have noPlain : rest.any plainV4 = false := Bool.eq_false_iff.mpr restPlain
        rw [List.any_cons, noPlain, Bool.or_false] at somePlain
        refine ⟨info, List.mem_cons_self, somePlain, ?_⟩
        rw [keep_of_plainV4 somePlain,
          foldl_keep_selected noPlain (value_ne_nil_of_plainV4 info somePlain)]

/-- Without plain IPv4 addresses, the first loopback address is kept. -/
theorem foldl_keep_loopback {addresses : List AddressInfo}
    (noPlain : addresses.any plainV4 = false) :
    addresses.foldl keep [] =
      ((addresses.find? AddressInfo.isLoopback).map AddressInfo.value).getD [] := by
  induction addresses with
  | nil => rfl
  | cons info rest induction =>
      rw [List.any_cons, Bool.or_eq_false_iff] at noPlain
      rw [List.foldl_cons]
      by_cases loopback : info.isLoopback = true
      · rw [List.find?_cons_of_pos loopback, keep, if_pos loopback, if_pos rfl,
          foldl_keep_selected noPlain.2 (value_ne_nil_of_isLoopback info loopback)]
        rfl
      · have kept : keep [] info = [] := by
          rw [keep, if_neg loopback, if_neg fun isV4 => by
            simp [plainV4, isV4, loopback] at noPlain]
        rw [List.find?_cons_of_neg loopback, kept, induction noPlain.2]

/-- With the flags that are set already, both kinds of addresses have been seen. -/
def flagged (hasV4 hasV6 : Bool) (addresses : List AddressInfo) : Bool :=
  (hasV4 || addresses.any plainV4) && (hasV6 || addresses.any plainV6)

theorem flagged_cons (hasV4 hasV6 : Bool) (info : AddressInfo)
    (addresses : List AddressInfo) :
    flagged hasV4 hasV6 (info :: addresses) =
      flagged (hasV4 || info.plainV4) (hasV6 || info.plainV6) addresses := by
  rw [flagged, flagged, List.any_cons, List.any_cons, Bool.or_assoc, Bool.or_assoc]

/-- One pass of the loop over an address that is not external. -/
theorem selectAddress_step {hasV4 hasV6 : Bool} (single : (hasV4 && hasV6) = false)
    {info : AddressInfo} (notExternal : info.external = false)
    (rest : List AddressInfo) (selected : ByteString) :
    selectAddress (info :: rest) hasV4 hasV6 selected =
      if (hasV4 || info.plainV4) && (hasV6 || info.plainV6) then
        (keep selected info, true)
      else
        selectAddress rest (hasV4 || info.plainV4) (hasV6 || info.plainV6)
          (keep selected info) := by
  rw [AddressInfo.external] at notExternal
  rw [selectAddress, notExternal, if_neg Bool.false_ne_true]
  by_cases loopback : info.isLoopback = true
  · have noV4 : info.plainV4 = false := by simp [plainV4, loopback]
    have noV6 : info.plainV6 = false := by simp [plainV6, loopback]
    rw [if_pos loopback, noV4, noV6, Bool.or_false, Bool.or_false, single,
      if_neg Bool.false_ne_true, keep, if_pos loopback]
  · rw [if_neg loopback, keep, if_neg loopback]
    cases isV4 : info.isV4 <;> simp [plainV4, plainV6, isV4, loopback]

/-- The loop goes through all addresses, or it stops at one: an external one, or one
with which both kinds have been seen. -/
inductive Selects (hasV4 hasV6 : Bool) (selected : ByteString) :
    List AddressInfo → ByteString × Bool → Prop
  | through (addresses : List AddressInfo)
      (noExternal : addresses.any external = false)
      (notFlagged : flagged hasV4 hasV6 addresses = false) :
      Selects hasV4 hasV6 selected addresses (addresses.foldl keep selected, false)
  | external (before : List AddressInfo) (stop : AddressInfo)
      (after : List AddressInfo) (noExternal : before.any external = false)
      (notFlagged : flagged hasV4 hasV6 before = false)
      (isExternal : stop.external = true) :
      Selects hasV4 hasV6 selected (before ++ stop :: after) (stop.value, true)
  | dual (before after : List AddressInfo)
      (noExternal : before.any AddressInfo.external = false)
      (isFlagged : flagged hasV4 hasV6 before = true) :
      Selects hasV4 hasV6 selected (before ++ after) (before.foldl keep selected, true)

/-- An address in front changes the flags and what is selected. -/
theorem selects_cons {hasV4 hasV6 : Bool} {selected : ByteString} {info : AddressInfo}
    (notExternal : info.external = false) {rest : List AddressInfo}
    {result : ByteString × Bool}
    (selects : Selects (hasV4 || info.plainV4) (hasV6 || info.plainV6)
      (keep selected info) rest result) :
    Selects hasV4 hasV6 selected (info :: rest) result := by
  cases selects with
  | through addresses noExternal notFlagged =>
      exact .through (info :: rest) (by rw [List.any_cons, notExternal, noExternal]; rfl)
        (by rw [flagged_cons, notFlagged])
  | external before stop after noExternal notFlagged isExternal =>
      exact .external (info :: before) stop after
        (by rw [List.any_cons, notExternal, noExternal]; rfl)
        (by rw [flagged_cons, notFlagged]) isExternal
  | dual before after noExternal isFlagged =>
      exact .dual (info :: before) after
        (by rw [List.any_cons, notExternal, noExternal]; rfl)
        (by rw [flagged_cons, isFlagged])

theorem selectAddress_selects {hasV4 hasV6 : Bool} (single : (hasV4 && hasV6) = false)
    (addresses : List AddressInfo) (selected : ByteString) :
    Selects hasV4 hasV6 selected addresses
      (selectAddress addresses hasV4 hasV6 selected) := by
  induction addresses generalizing hasV4 hasV6 selected with
  | nil => exact .through [] rfl (by simpa [flagged] using single)
  | cons info rest induction =>
      by_cases isExternal : info.external = true
      · have stops : selectAddress (info :: rest) hasV4 hasV6 selected =
            (info.value, true) := by
          rw [selectAddress]
          exact if_pos isExternal
        rw [stops]
        exact .external [] info rest rfl (by simpa [flagged] using single) isExternal
      · have notExternal : info.external = false := Bool.eq_false_iff.mpr isExternal
        rw [selectAddress_step single notExternal]
        split
        · rename_i both
          apply selects_cons notExternal
          exact .dual [] rest rfl (by simpa [flagged] using both)
        · rename_i notBoth
          exact selects_cons notExternal (induction (Bool.eq_false_iff.mpr notBoth) _)

theorem flagged_none (addresses : List AddressInfo) :
    flagged false false addresses = dual addresses := by
  rw [flagged, Bool.false_or, Bool.false_or, dual]

theorem dual_of_isPrefix {before addresses : List AddressInfo}
    (isPrefix : before <+: addresses) (isDual : dual before = true) :
    dual addresses = true := by
  obtain ⟨after, rfl⟩ := isPrefix
  obtain ⟨v4, v6⟩ := Bool.and_eq_true_iff.mp isDual
  rw [dual, List.any_append, List.any_append, v4, v6]
  rfl

theorem notExternal_of_any {addresses : List AddressInfo}
    (noExternal : addresses.any external = false) :
    ∀ info ∈ addresses, (!info.external) = true := by
  intro info member
  have notExternal := List.any_eq_false.mp noExternal info member
  simpa using notExternal

theorem takeWhile_external {before after : List AddressInfo} {stop : AddressInfo}
    (noExternal : before.any external = false) (isExternal : stop.external = true) :
    (before ++ stop :: after).takeWhile (fun info => !info.external) = before := by
  rw [List.takeWhile_append_of_pos (notExternal_of_any noExternal),
    List.takeWhile_cons_of_neg (by simp [isExternal]), List.append_nil]

theorem prefix_takeWhile {before : List AddressInfo}
    (noExternal : before.any external = false) (after : List AddressInfo) :
    before <+: (before ++ after).takeWhile fun info => !info.external := by
  rw [List.takeWhile_append_of_pos (notExternal_of_any noExternal)]
  exact List.prefix_append before _

/-- Nothing that is seen before the first external address is external. -/
theorem untilExternal_external (interfaces : List (List AddressInfo)) :
    ∀ addresses ∈ untilExternal interfaces, addresses.any external = false := by
  induction interfaces with
  | nil => exact fun _ member => (List.not_mem_nil member).elim
  | cons addresses rest induction =>
      unfold untilExternal
      split
      · refine List.forall_mem_singleton.mpr (List.any_eq_false.mpr ?_)
        intro info member
        simpa using List.mem_takeWhile_imp member
      · rename_i noExternal
        exact List.forall_mem_cons.mpr ⟨Bool.eq_false_iff.mpr noExternal, induction⟩

/-- Without external addresses, everything is seen. -/
theorem untilExternal_eq {interfaces : List (List AddressInfo)}
    (noExternal : interfaces.flatten.any external = false) :
    untilExternal interfaces = interfaces := by
  induction interfaces with
  | nil => rfl
  | cons addresses rest induction =>
      rw [List.flatten_cons, List.any_append, Bool.or_eq_false_iff] at noExternal
      rw [untilExternal, noExternal.1, if_neg Bool.false_ne_true,
        induction noExternal.2]

/-- Without external addresses and interfaces with both kinds, the pass goes
through. -/
theorem selectBest_through {interfaces : List (List AddressInfo)}
    (noExternal : interfaces.flatten.any external = false)
    (noDual : interfaces.any dual = false) (selected : ByteString) :
    selectBest interfaces selected = interfaces.flatten.foldl keep selected := by
  induction interfaces generalizing selected with
  | nil => rfl
  | cons addresses rest induction =>
      rw [List.flatten_cons, List.any_append, Bool.or_eq_false_iff] at noExternal
      rw [List.any_cons, Bool.or_eq_false_iff] at noDual
      have selects := selectAddress_selects (Bool.false_and false) addresses selected
      rw [selectBest, List.flatten_cons, List.foldl_append]
      generalize selectAddress addresses false false selected = result at selects
      cases selects with
      | through _ _ _ => exact induction noExternal.2 noDual.2 _
      | external before stop after _ _ isExternal =>
          have found := noExternal.1
          simp [isExternal] at found
      | dual before after _ isFlagged =>
          rw [flagged_none] at isFlagged
          have isDual := dual_of_isPrefix (List.prefix_append before after) isFlagged
          rw [noDual.1] at isDual
          cases isDual

/-- The first external address is selected, unless an interface has shown both kinds
of addresses before. -/
theorem selectBest_external {interfaces : List (List AddressInfo)}
    (someExternal : interfaces.flatten.any external = true)
    (noDual : ∀ addresses ∈ untilExternal interfaces, dual addresses = false)
    (selected : ByteString) :
    ∃ info ∈ interfaces.flatten, info.external = true ∧
      selectBest interfaces selected = info.value := by
  induction interfaces generalizing selected with
  | nil => cases someExternal
  | cons addresses rest induction =>
      have selects := selectAddress_selects (Bool.false_and false) addresses selected
      rw [selectBest, List.flatten_cons]
      rw [untilExternal] at noDual
      generalize selectAddress addresses false false selected = result at selects
      cases selects with
      | through _ noExternal _ =>
          rw [noExternal, if_neg Bool.false_ne_true] at noDual
          rw [List.flatten_cons, List.any_append, noExternal, Bool.false_or]
            at someExternal
          obtain ⟨info, member, isExternal, same⟩ := induction someExternal
            (List.forall_mem_cons.mp noDual).2 (addresses.foldl keep selected)
          exact ⟨info, List.mem_append_right _ member, isExternal, same⟩
      | external before stop after _ _ isExternal =>
          exact ⟨stop, by simp, isExternal, rfl⟩
      | dual before after noExternal isFlagged =>
          rw [flagged_none] at isFlagged
          split at noDual
          · have seen := List.forall_mem_singleton.mp noDual
            rw [dual_of_isPrefix (prefix_takeWhile noExternal after) isFlagged] at seen
            cases seen
          · have seen := (List.forall_mem_cons.mp noDual).1
            rw [dual_of_isPrefix (List.prefix_append before after) isFlagged] at seen
            cases seen

/-- An interface that has shown both kinds of addresses ends the pass. -/
theorem selectBest_dual {interfaces : List (List AddressInfo)}
    (someDual : (untilExternal interfaces).any dual = true) (selected : ByteString) :
    ∃ addresses ∈ untilExternal interfaces, dual addresses = true ∧
      ∃ info ∈ addresses, info.plainV4 = true ∧
        selectBest interfaces selected = info.value := by
  induction interfaces generalizing selected with
  | nil => cases someDual
  | cons addresses rest induction =>
      have selects := selectAddress_selects (Bool.false_and false) addresses selected
      rw [selectBest]
      rw [untilExternal] at someDual ⊢
      generalize selectAddress addresses false false selected = result at selects
      cases selects with
      | through _ noExternal notFlagged =>
          rw [flagged_none] at notFlagged
          rw [noExternal, if_neg Bool.false_ne_true] at someDual ⊢
          rw [List.any_cons, notFlagged, Bool.false_or] at someDual
          obtain ⟨seen, member, isDual, kept⟩ :=
            induction someDual (addresses.foldl keep selected)
          exact ⟨seen, List.mem_cons_of_mem _ member, isDual, kept⟩
      | external before stop after noExternal notFlagged isExternal =>
          rw [flagged_none] at notFlagged
          have found : (before ++ stop :: after).any AddressInfo.external = true := by
            simp [isExternal]
          rw [if_pos found, takeWhile_external noExternal isExternal, List.any_cons,
            notFlagged] at someDual
          cases someDual
      | dual before after noExternal isFlagged =>
          rw [flagged_none] at isFlagged
          obtain ⟨info, member, isPlain, kept⟩ :=
            foldl_keep_plain (Bool.and_eq_true_iff.mp isFlagged).1 selected
          have seen {addresses : List AddressInfo} (isPrefix : before <+: addresses) :
              dual addresses = true ∧ info ∈ addresses :=
            ⟨dual_of_isPrefix isPrefix isFlagged, isPrefix.subset member⟩
          split
          · obtain ⟨isDual, inside⟩ := seen (prefix_takeWhile noExternal after)
            exact ⟨_, List.mem_singleton_self _, isDual, info, inside, isPlain, kept⟩
          · obtain ⟨isDual, inside⟩ := seen (List.prefix_append before after)
            exact ⟨_, List.mem_cons_self, isDual, info, inside, isPlain, kept⟩

section Ranking

variable {interfaces : List (List AddressInfo)}

theorem any_flatten_of_mem {test : AddressInfo → Bool} {addresses : List AddressInfo}
    (member : addresses ∈ interfaces) (holds : addresses.any test = true) :
    interfaces.flatten.any test = true := by
  obtain ⟨info, isInfo, tested⟩ := List.any_eq_true.mp holds
  exact List.any_eq_true.mpr ⟨info, List.mem_flatten_of_mem member isInfo, tested⟩

theorem somePlain_of_external (someExternal : interfaces.flatten.any external = true) :
    interfaces.flatten.any plainV4 = true := by
  obtain ⟨info, member, isExternal⟩ := List.any_eq_true.mp someExternal
  exact List.any_eq_true.mpr ⟨info, member, plainV4_of_external info isExternal⟩

theorem somePlain_of_dual (someDual : interfaces.any dual = true) :
    interfaces.flatten.any plainV4 = true := by
  obtain ⟨addresses, member, isDual⟩ := List.any_eq_true.mp someDual
  exact any_flatten_of_mem member (Bool.and_eq_true_iff.mp isDual).1

theorem someV4_of_plain (somePlain : interfaces.flatten.any plainV4 = true) :
    interfaces.flatten.any AddressInfo.isV4 = true := by
  obtain ⟨info, member, isPlain⟩ := List.any_eq_true.mp somePlain
  exact List.any_eq_true.mpr ⟨info, member, (Bool.and_eq_true_iff.mp isPlain).1⟩

/-- Where only loopback addresses are listed, the first of them is selected. -/
theorem selectBest_loopback (noPlain : interfaces.flatten.any plainV4 = false) :
    selectBest interfaces [] =
      ((interfaces.flatten.find? AddressInfo.isLoopback).map
        AddressInfo.value).getD [] := by
  have noExternal : interfaces.flatten.any external = false := by
    by_contra some
    rw [somePlain_of_external (by simpa using some)] at noPlain
    cases noPlain
  have noDual : interfaces.any dual = false := by
    by_contra some
    rw [somePlain_of_dual (by simpa using some)] at noPlain
    cases noPlain
  rw [selectBest_through noExternal noDual, foldl_keep_loopback noPlain]

theorem ranked_of_plain (somePlain : interfaces.flatten.any plainV4 = true)
    (unmisled : Unmisled interfaces) : Ranked interfaces (selectBest interfaces []) := by
  have someV4 := someV4_of_plain somePlain
  constructor
  · exact fun some => selectBest_external some (unmisled.external some) []
  · intro noExternal someDual
    rw [← untilExternal_eq noExternal] at someDual
    have selects := selectBest_dual someDual []
    rwa [untilExternal_eq noExternal] at selects
  · intro noExternal noDual _
    rw [selectBest_through noExternal noDual]
    exact foldl_keep_plain somePlain []
  · exact fun noPlain => absurd somePlain (by simp [noPlain])
  · exact fun noV4 => absurd someV4 (by simp [noV4])

theorem ranked_of_noPlain (noPlain : interfaces.flatten.any plainV4 = false)
    (unmisled : Unmisled interfaces) : Ranked interfaces (selectBest interfaces []) := by
  have isFirst := selectBest_loopback noPlain
  constructor
  · exact fun some => absurd (somePlain_of_external some) (by simp [noPlain])
  · exact fun _ some => absurd (somePlain_of_dual some) (by simp [noPlain])
  · exact fun _ _ some => absurd some (by simp [noPlain])
  · intro _ someV4
    obtain ⟨info, member, isV4⟩ := List.any_eq_true.mp someV4
    have notPlain := List.any_eq_false.mp noPlain info member
    have loopback : info.isLoopback = true := by simpa [plainV4, isV4] using notPlain
    have found : (interfaces.flatten.find? AddressInfo.isLoopback).isSome = true :=
      List.find?_isSome.mpr ⟨info, member, loopback⟩
    obtain ⟨first, isFound⟩ := Option.isSome_iff_exists.mp found
    rw [isFirst, isFound, Option.map_some, Option.getD_some,
      value_of_isLoopback first (List.find?_some isFound),
      if_pos (unmisled.loopback noPlain first isFound)]
  · intro noV4
    rw [isFirst]
    cases found : interfaces.flatten.find? AddressInfo.isLoopback with
    | none => rfl
    | some first =>
        have isV4 := unmisled.loopback noPlain first found
        have notV4 := List.any_eq_false.mp noV4 first (List.mem_of_find?_eq_some found)
        exact absurd isV4 notV4

theorem unmisled_of_ranked (ranked : Ranked interfaces (selectBest interfaces [])) :
    Unmisled interfaces where
  external := by
    intro someExternal addresses member
    by_contra isDual
    have someDual : (untilExternal interfaces).any dual = true :=
      List.any_eq_true.mpr ⟨addresses, member, by simpa using isDual⟩
    obtain ⟨seen, isSeen, -, info, inside, isPlain, kept⟩ := selectBest_dual someDual []
    obtain ⟨other, -, isExternal, same⟩ := ranked.external someExternal
    have alsoExternal := external_of_value (Bool.and_eq_true_iff.mp isPlain).1
      isExternal (kept.symm.trans same)
    have noExternal := untilExternal_external interfaces seen isSeen
    exact List.any_eq_false.mp noExternal info inside alsoExternal
  loopback := by
    intro noPlain info found
    by_contra notV4
    have isFirst := selectBest_loopback noPlain
    rw [found, Option.map_some, Option.getD_some,
      value_of_isLoopback info (List.find?_some found), if_neg notV4] at isFirst
    by_cases someV4 : interfaces.flatten.any AddressInfo.isV4 = true
    · rw [ranked.loopback noPlain someV4] at isFirst
      exact absurd isFirst (by decide)
    · rw [ranked.none (Bool.eq_false_iff.mpr someV4)] at isFirst
      exact absurd isFirst (by decide)

theorem ranked_iff (interfaces : List (List AddressInfo)) :
    Ranked interfaces (selectBest interfaces []) ↔ Unmisled interfaces := by
  refine ⟨unmisled_of_ranked, fun unmisled => ?_⟩
  by_cases somePlain : interfaces.flatten.any plainV4 = true
  · exact ranked_of_plain somePlain unmisled
  · exact ranked_of_noPlain (Bool.eq_false_iff.mpr somePlain) unmisled

/-- An address that is ranked is an IPv4 address or none. -/
theorem Ranked.dotted {selected : ByteString} (ranked : Ranked interfaces selected) :
    selected = [] ∨ ∃ address : Ipv4, selected = address.dotted := by
  have ofPlain {info : AddressInfo} (isPlain : info.plainV4 = true)
      (same : selected = info.value) : ∃ address : Ipv4, selected = address.dotted := by
    obtain ⟨address, isDotted⟩ := info.dotted (Bool.and_eq_true_iff.mp isPlain).1
    exact ⟨address, same.trans isDotted⟩
  cases noV4 : interfaces.flatten.any AddressInfo.isV4 with
  | false => exact .inl (ranked.none noV4)
  | true =>
      right
      cases noPlain : interfaces.flatten.any plainV4 with
      | false =>
          exact ⟨⟨127, 0, 0, 1⟩, (ranked.loopback noPlain noV4).trans (by decide)⟩
      | true =>
          cases noExternal : interfaces.flatten.any AddressInfo.external with
          | true =>
              obtain ⟨info, -, isExternal, same⟩ := ranked.external noExternal
              exact ofPlain (plainV4_of_external info isExternal) same
          | false =>
              cases noDual : interfaces.any PortMapping.dual with
              | true =>
                  obtain ⟨-, -, -, info, -, isPlain, same⟩ :=
                    ranked.dual noExternal noDual
                  exact ofPlain isPlain same
              | false =>
                  obtain ⟨info, -, isPlain, same⟩ :=
                    ranked.plain noExternal noDual noPlain
                  exact ofPlain isPlain same

end Ranking

/-- The addresses that are listed under a name. -/
def listedUnder (name : ByteString) (entries : List (ByteString × InterfaceAddress)) :
    List AddressInfo :=
  entries.filterMap fun entry => if entry.1 = name then addressInfo entry.2 else none

/-- An interface has the addresses that are listed under its name, in their order. -/
theorem lookup_collect (entries : List (ByteString × InterfaceAddress))
    (name : ByteString) :
    (collect entries).lookup name =
      if listedUnder name entries = [] then none
      else some (listedUnder name entries) := by
  induction entries using List.reverseRecOn with
  | nil => rfl
  | append_singleton entries entry induction =>
      have step : collect (entries ++ [entry]) = addAddress (collect entries) entry := by
        rw [collect, List.foldl_append]
        rfl
      have listed : listedUnder name (entries ++ [entry]) = listedUnder name entries ++
          (if entry.1 = name then addressInfo entry.2 else none).toList := by
        rw [listedUnder, List.filterMap_append, listedUnder]
        congr 1
      rw [step, listed, addAddress]
      cases isInfo : addressInfo entry.2 with
      | none => simpa using induction
      | some info =>
          dsimp only
          rw [OrderedMap.lookup_alter]
          by_cases same : name = entry.1
          · have nonempty : listedUnder name entries ++ [info] ≠ [] := by simp
            rw [if_pos same, if_pos same.symm, ← same, induction, Option.toList_some,
              if_neg nonempty]
            split
            · rename_i empty
              rw [empty]
              rfl
            · rfl
          · rw [if_neg same, if_neg (Ne.symm same), induction, Option.toList_none,
              List.append_nil]

/-- The interfaces of an enumeration, in the order of their names. -/
def interfacesOf (entries : List (ByteString × InterfaceAddress)) :
    List (List AddressInfo) :=
  (collect entries).entries.map Prod.snd

/-- The selected address follows the ranking exactly when nothing misleads the pass, and
then it is no IPv6 address. -/
theorem bestAddress_ranked_iff (entries : List (ByteString × InterfaceAddress)) :
    (Ranked (interfacesOf entries) (findBestAddress (some entries)) ↔
      Unmisled (interfacesOf entries)) ∧
    (Unmisled (interfacesOf entries) → findBestAddress (some entries) = [] ∨
      ∃ address : Ipv4, findBestAddress (some entries) = address.dotted) ∧
    ∀ name, (collect entries).lookup name =
      if listedUnder name entries = [] then none
      else some (listedUnder name entries) :=
  ⟨ranked_iff _, fun unmisled => ((ranked_iff _).mpr unmisled).dotted,
    lookup_collect entries⟩

theorem bestAddress_ranked_iff_external :
    Ranked (interfacesOf [(ascii "ppp0", .v4 ⟨8, 8, 8, 8⟩)])
      (findBestAddress (some [(ascii "ppp0", .v4 ⟨8, 8, 8, 8⟩)])) := by
  refine (bestAddress_ranked_iff _).1.mpr ⟨fun _ => by decide +kernel, ?_⟩
  exact fun noPlain => absurd noPlain (by decide +kernel)

/-- An interface with an address of each kind, in front of one with an external
address. -/
def misleadingEntries : List (ByteString × InterfaceAddress) :=
  [(ascii "eth0", .v4 ⟨192, 168, 1, 2⟩), (ascii "eth0", .v6 (ascii "2001:db8::1")),
    (ascii "ppp0", .v4 ⟨8, 8, 8, 8⟩)]

theorem bestAddress_not_ranked :
    ¬ ∀ entries, Ranked (interfacesOf entries) (findBestAddress (some entries)) := by
  intro ranked
  obtain ⟨info, member, isExternal, same⟩ :=
    (ranked misleadingEntries).external (by decide +kernel)
  have selected : findBestAddress (some misleadingEntries) = ascii "192.168.1.2" := by
    decide +kernel
  have others : ((interfacesOf misleadingEntries).flatten.all fun info =>
      !(info.external && info.value == ascii "192.168.1.2")) = true := by
    decide +kernel
  have differs := List.all_eq_true.mp others info member
  rw [isExternal, ← same, selected, beq_self_eq_true] at differs
  cases differs

end PortMapping

end Blocxxi
