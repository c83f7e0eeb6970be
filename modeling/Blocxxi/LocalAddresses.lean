import Blocxxi.AddressSelection

/-!
# Local addresses

Whether an address is local is read off the front of its text.  The fronts of
three ranges are compared with as many bytes of the text as they have, the one
of `172.16.0.0/12` with one byte more, so no address is ever found in it, and
the port mapper does not look for a gateway in front of such an address.
-/

namespace Blocxxi

namespace PortMapping

open ByteText

/-- The port mappers: fixed addresses, or what the discovery has found. -/
inductive PortMapper (Upnp : Type)
  | noPortMapper (externalIp internalIp : ByteString)
  | upnp (mapper : Upnp)

/-- The mapper that is returned, and whether discovery was attempted for it. -/
structure MapperAttempt (Upnp : Type) where
  mapper : Option (PortMapper Upnp)
  attempted : Bool := false

/-- `GetPortMapper`, on a host whose enumeration and discovery have the given
results. -/
def getPortMapper {Upnp : Type}
    (entries : Option (List (ByteString × InterfaceAddress)))
    (discovered : Option Upnp) (spec : ByteString) : MapperAttempt Upnp :=
  let parts := spec.splitOn 58
  let mechanism := parts.headD []
  if mechanism = ascii "extip" then
    match parts with
    | [_, externalIp, internalIp] =>
        { mapper := some (.noPortMapper externalIp internalIp) }
    | [_, externalIp] => { mapper := some (.noPortMapper externalIp externalIp) }
    | _ => { mapper := none }
  else if mechanism = ascii "upnp" then
    { mapper := discovered.map .upnp, attempted := true }
  else if mechanism = ascii "pmp" then { mapper := none }
  else
    let address := findBestAddress entries
    if address = [] then { mapper := none }
    else if isLocal address false then
      match discovered with
      | some upnp => { mapper := some (.upnp upnp), attempted := true }
      | none => { mapper := some (.noPortMapper address address), attempted := true }
    else { mapper := some (.noPortMapper address address) }

/-- The specification leaves the choice to the host. -/
def Automatic (spec : ByteString) : Prop :=
  (spec.splitOn 58).headD [] ∉ [ascii "extip", ascii "upnp", ascii "pmp"]

instance : DecidablePred Automatic := fun _ => inferInstanceAs (Decidable (_ ∉ _))

/-- A host that chooses attempts discovery for a local address. -/
theorem getPortMapper_attempted {Upnp : Type}
    {entries : Option (List (ByteString × InterfaceAddress))}
    (discovered : Option Upnp) {spec : ByteString} (automatic : Automatic spec)
    (selected : findBestAddress entries ≠ []) :
    (getPortMapper entries discovered spec).attempted =
      isLocal (findBestAddress entries) false := by
  simp only [Automatic, List.mem_cons, List.not_mem_nil, or_false, not_or] at automatic
  obtain ⟨notExtip, notUpnp, notPmp⟩ := automatic
  unfold getPortMapper
  dsimp only
  rw [if_neg notExtip, if_neg notUpnp, if_neg notPmp, if_neg selected]
  cases isLocal (findBestAddress entries) false with
  | false => rfl
  | true => cases discovered <;> rfl

theorem dot_notMem_decimal (octet : UInt8) : dot ∉ decimal octet.toNat :=
  notMem_decimal (by decide)

theorem decimal_octet_injective {first second : UInt8}
    (same : decimal first.toNat = decimal second.toNat) : first = second :=
  UInt8.toNat_inj.mp (decimal_injective same)

theorem dotted_injective : Function.Injective Ipv4.dotted := by
  rintro ⟨a, b, c, d⟩ ⟨e, f, g, h⟩ same
  obtain ⟨first, same⟩ :=
    append_separator_inj (dot_notMem_decimal a) (dot_notMem_decimal e) same
  obtain ⟨second, same⟩ :=
    append_separator_inj (dot_notMem_decimal b) (dot_notMem_decimal f) same
  obtain ⟨third, same⟩ :=
    append_separator_inj (dot_notMem_decimal c) (dot_notMem_decimal g) same
  have fourth : decimal d.toNat = decimal h.toNat := same
  rw [decimal_octet_injective first, decimal_octet_injective second,
    decimal_octet_injective third, decimal_octet_injective fourth]

theorem isLoopback_dotted_iff (address : Ipv4) :
    isLoopback address.dotted false = true ↔ address = ⟨127, 0, 0, 1⟩ := by
  have loopback : ascii "127.0.0.1" = Ipv4.dotted ⟨127, 0, 0, 1⟩ := by decide
  rw [isLoopback, beq_iff_eq, if_neg Bool.false_ne_true, loopback]
  exact dotted_injective.eq_iff

theorem take_eq_iff {text front : ByteString} {width : Nat}
    (isWidth : front.length = width) : text.take width = front ↔ front <+: text := by
  rw [List.prefix_iff_eq_take, isWidth, eq_comm]

/-- A front of one component fixes the first octet. -/
theorem front_one_iff (octet first : UInt8) (rest : ByteString) :
    decimal octet.toNat ++ [dot] <+: decimal first.toNat ++ dot :: rest ↔
      first = octet := by
  constructor
  · rintro ⟨tail, same⟩
    rw [List.append_assoc] at same
    have component := append_separator_inj (dot_notMem_decimal octet)
      (dot_notMem_decimal first) same
    exact (decimal_octet_injective component.1).symm
  · rintro rfl
    exact (List.prefix_append_right_inj _).mpr (List.prefix_append [dot] rest)

/-- A front of two components fixes the first two octets. -/
theorem front_two_iff (octet other first second : UInt8) (rest : ByteString) :
    decimal octet.toNat ++ dot :: (decimal other.toNat ++ [dot]) <+:
        decimal first.toNat ++ dot :: (decimal second.toNat ++ dot :: rest) ↔
      first = octet ∧ second = other := by
  constructor
  · rintro ⟨tail, same⟩
    rw [List.append_assoc, List.cons_append, List.append_assoc] at same
    obtain ⟨firstSame, same⟩ := append_separator_inj (dot_notMem_decimal octet)
      (dot_notMem_decimal first) same
    have secondSame := append_separator_inj (dot_notMem_decimal other)
      (dot_notMem_decimal second) same
    exact ⟨(decimal_octet_injective firstSame).symm,
      (decimal_octet_injective secondSame.1).symm⟩
  · rintro ⟨rfl, rfl⟩
    refine (List.prefix_append_right_inj _).mpr (List.cons_prefix_cons.mpr ⟨rfl, ?_⟩)
    exact (List.prefix_append_right_inj _).mpr (List.prefix_append [dot] rest)

/-- Every address has at least seven bytes, one more than the fronts in `172.`. -/
theorem seven_le_length (address : Ipv4) : 7 ≤ address.dotted.length := by
  have digits (octet : UInt8) : 0 < (decimal octet.toNat).length :=
    List.length_pos_iff.mpr (decimal_ne_nil octet.toNat)
  have first := digits address.first
  have second := digits address.second
  have third := digits address.third
  have fourth := digits address.fourth
  simp only [Ipv4.dotted, List.length_append, List.length_cons]
  omega

theorem take_seven_ne (address : Ipv4) {front : ByteString} (short : front.length = 6) :
    address.dotted.take 7 ≠ front := by
  intro same
  have seven := congrArg List.length same
  rw [List.length_take, short] at seven
  have long := seven_le_length address
  omega

namespace Ipv4

/-- `172.16.0.0/12`. -/
def InTwelveBitRange (address : Ipv4) : Prop :=
  address.first = 172 ∧ 16 ≤ address.second ∧ address.second ≤ 31

/-- The loopback address, and the ranges that are set apart for local networks. -/
def NotPublic (address : Ipv4) : Prop :=
  address = ⟨127, 0, 0, 1⟩ ∨ address.first = 10 ∨ address.InTwelveBitRange ∨
    (address.first = 192 ∧ address.second = 168) ∨
    (address.first = 169 ∧ address.second = 254)

instance : DecidablePred InTwelveBitRange := fun _ =>
  inferInstanceAs (Decidable (_ ∧ _ ∧ _))

instance : DecidablePred NotPublic := fun _ =>
  inferInstanceAs (Decidable (_ ∨ _ ∨ _ ∨ _ ∨ _))

end Ipv4

/-- The addresses that are found to be local. -/
theorem isLocal_dotted_iff (address : Ipv4) :
    isLocal address.dotted false = true ↔
      address = ⟨127, 0, 0, 1⟩ ∨ address.first = 10 ∨
        (address.first = 192 ∧ address.second = 168) ∨
        (address.first = 169 ∧ address.second = 254) := by
  have ten : address.dotted.take 3 = ascii "10." ↔ address.first = 10 :=
    (take_eq_iff (by decide)).trans (front_one_iff 10 address.first _)
  have privateRange : address.dotted.take 8 = ascii "192.168." ↔
      address.first = 192 ∧ address.second = 168 :=
    (take_eq_iff (by decide)).trans (front_two_iff 192 168 _ _ _)
  have linkLocal : address.dotted.take 8 = ascii "169.254." ↔
      address.first = 169 ∧ address.second = 254 :=
    (take_eq_iff (by decide)).trans (front_two_iff 169 254 _ _ _)
  have never (front : String) (short : (ascii front).length = 6) :
      (address.dotted.take 7 == ascii front) = false :=
    beq_eq_false_iff_ne.mpr (take_seven_ne address short)
  have neverLonger : (address.dotted.take 7 == ascii "172.16" ||
      address.dotted.take 7 == ascii "172.17" ||
      address.dotted.take 7 == ascii "172.18") = false := by
    rw [never "172.16" (by decide), never "172.17" (by decide), never "172.18" (by decide)]
    rfl
  rw [← isLoopback_dotted_iff, ← ten, ← privateRange, ← linkLocal]
  simp only [isLocal, beq_iff_eq, neverLonger]
  split_ifs <;> simp_all

/-- An address of the twelve-bit range is in none of the others. -/
theorem not_isLocal_of_inTwelveBitRange {address : Ipv4}
    (inRange : address.InTwelveBitRange) : ¬ isLocal address.dotted false = true := by
  obtain ⟨isFirst, -, -⟩ := inRange
  rw [isLocal_dotted_iff]
  rintro (rfl | ten | ⟨first, -⟩ | ⟨first, -⟩)
  · exact absurd isFirst (by decide)
  · exact absurd (ten.symm.trans isFirst) (by decide)
  · exact absurd (first.symm.trans isFirst) (by decide)
  · exact absurd (first.symm.trans isFirst) (by decide)

theorem notPublic_iff (address : Ipv4) :
    address.NotPublic ↔ isLocal address.dotted false = true ∨ address.InTwelveBitRange := by
  rw [isLocal_dotted_iff, Ipv4.NotPublic]
  constructor
  · rintro (loopback | ten | inRange | privateRange | linkLocal)
    · exact .inl (.inl loopback)
    · exact .inl (.inr (.inl ten))
    · exact .inr inRange
    · exact .inl (.inr (.inr (.inl privateRange)))
    · exact .inl (.inr (.inr (.inr linkLocal)))
  · rintro ((loopback | ten | privateRange | linkLocal) | inRange)
    · exact .inl loopback
    · exact .inr (.inl ten)
    · exact .inr (.inr (.inr (.inl privateRange)))
    · exact .inr (.inr (.inr (.inr linkLocal)))
    · exact .inr (.inr (.inl inRange))

theorem isLocal_agrees_iff (address : Ipv4) :
    (isLocal address.dotted false = true ↔ address.NotPublic) ↔
      ¬ address.InTwelveBitRange := by
  rw [notPublic_iff]
  constructor
  · intro agrees inRange
    exact not_isLocal_of_inTwelveBitRange inRange (agrees.mpr (.inr inRange))
  · intro notInRange
    exact ⟨.inl, fun either => either.resolve_right notInRange⟩

/-- Outside of the twelve-bit range, and only there, an address is found to be local
exactly when it is not public, and discovery is attempted accordingly. -/
theorem localAddresses_iff (address : Ipv4) :
    ((isLocal address.dotted false = true ↔ address.NotPublic) ↔
      ¬ address.InTwelveBitRange) ∧
    ∀ (Upnp : Type) (entries : Option (List (ByteString × InterfaceAddress)))
      (discovered : Option Upnp) (spec : ByteString),
      Automatic spec → findBestAddress entries = address.dotted →
        (((getPortMapper entries discovered spec).attempted = true ↔
          address.NotPublic) ↔ ¬ address.InTwelveBitRange) := by
  refine ⟨isLocal_agrees_iff address, ?_⟩
  intro Upnp entries discovered spec automatic selected
  have nonempty : findBestAddress entries ≠ [] := by
    rw [selected]
    exact address.dotted_ne_nil
  rw [getPortMapper_attempted discovered automatic nonempty, selected]
  exact isLocal_agrees_iff address

theorem localAddresses_iff_private :
    isLocal (Ipv4.dotted ⟨10, 1, 2, 3⟩) false = true ↔ Ipv4.NotPublic ⟨10, 1, 2, 3⟩ :=
  (localAddresses_iff _).1.mpr (by decide)

/-- `172.16.0.1` is not found to be local. -/
theorem localAddresses_missed :
    ¬ ∀ address : Ipv4, isLocal address.dotted false = true ↔ address.NotPublic := by
  intro agrees
  have found := (agrees ⟨172, 16, 0, 1⟩).mpr (by decide)
  exact absurd found (by decide +kernel)

end PortMapping

end Blocxxi
