/-
  NewApi.Lib.NetIP

  The part of Go's `net` that classifies addresses: `IP` of 4 or 16 bytes, `IPNet`
  with its `Contains`, and the predicates of `IP`.

  Every method first takes the 4-byte form of an address that has one, so what it
  sees of an address is its `view`.  `Ranges` are sets of views given by
  prefixes; `any_cidr4_iff`, `any_cidr6_iff` and the lemmas on the predicates say
  which prefixes each method checks.
-/

import Mathlib
import NewApi.Lib.Prefixes

namespace NewApi.Lib.NetIP

open BitVec (eq_of_toNat_eq toNat_inj toNat_setWidth toNat_ushiftRight)

/-! ## Addresses -/

/-- `net.IP` of 4 or of 16 bytes, the first byte the highest. -/
inductive IP
  | v4 (a : BitVec 32)
  | v6 (a : BitVec 128)

/-- The bytes `a.b.c.d` -/
def ipv4 (a b c d : BitVec 8) : BitVec 32 := a ++ b ++ c ++ d

/-- The groups `a:b:c:d:e:f:g:h` -/
def ipv6 (a b c d e f g h : BitVec 16) : BitVec 128 := a ++ b ++ c ++ d ++ e ++ f ++ g ++ h

variable (a : BitVec 32)

/-- `::ffff:a` -/
def mapped : BitVec 128 := (0xffff#96 : BitVec 96) ++ a

/-- The 4 bytes of an address, if it has such a form, or else its 16: what
    `To4` gives, and what the methods go on with. -/
def IP.view : IP → BitVec 32 ⊕ BitVec 128
  | .v4 a => .inl a
  | .v6 a => if a >>> 32 = 0xffff#128 then .inl (a.setWidth 32) else .inr a

def IP.to4 (ip : IP) : Option (BitVec 32) := ip.view.getLeft?

def IP.equal : IP → IP → Bool
  | .v4 a, .v4 b => a == b
  | .v6 a, .v6 b => a == b
  | .v4 a, .v6 b => b == mapped a
  | .v6 a, .v4 b => a == mapped b

theorem mapped_toNat : (mapped a).toNat = 0xffff * 2 ^ 32 + a.toNat := by
  rw [mapped, BitVec.toNat_append, ← Nat.shiftLeft_add_eq_or_of_lt a.isLt, Nat.shiftLeft_eq]
  rfl

theorem shift_eq_iff_mapped (a : BitVec 128) :
    a >>> 32 = 0xffff#128 ↔ a = mapped (a.setWidth 32) := by
  have hlow : (a.setWidth 32).toNat = a.toNat % 2 ^ 32 := toNat_setWidth 32 a
  constructor
  · intro h
    have hhigh := congrArg BitVec.toNat h
    rw [toNat_ushiftRight, Nat.shiftRight_eq_div_pow] at hhigh
    apply eq_of_toNat_eq
    rw [mapped_toNat, hlow]
    have hdiv : a.toNat / 2 ^ 32 = 0xffff := hhigh
    omega
  intro h
  have hall := congrArg BitVec.toNat h
  rw [mapped_toNat, hlow] at hall
  apply eq_of_toNat_eq
  rw [toNat_ushiftRight, Nat.shiftRight_eq_div_pow]
  show a.toNat / 2 ^ 32 = 0xffff
  omega

theorem mapped_setWidth : (mapped a).setWidth 32 = a := by
  apply eq_of_toNat_eq
  rw [toNat_setWidth, mapped_toNat]
  have := a.isLt
  omega

@[simp] theorem view_v4 : (IP.v4 a).view = .inl a := rfl

/-- **The two forms of an IPv4 address look alike.** -/
@[simp] theorem view_mapped : (IP.v6 (mapped a)).view = .inl a := by
  have hmapped : mapped a = mapped ((mapped a).setWidth 32) := by rw [mapped_setWidth]
  rw [IP.view, if_pos ((shift_eq_iff_mapped _).2 hmapped), mapped_setWidth]

theorem view_of_not_mapped {a : BitVec 128} (h : a >>> 32 ≠ 0xffff#128) :
    (IP.v6 a).view = .inr a := if_neg h

theorem IP.forms (ip : IP) : (∃ a, ip.view = .inl a ∧ (ip = .v4 a ∨ ip = .v6 (mapped a))) ∨
      ∃ a, ip.view = .inr a ∧ ip = .v6 a ∧ a >>> 32 ≠ 0xffff#128 := by
  cases ip with
  | v4 a => exact .inl ⟨a, rfl, .inl rfl⟩
  | v6 a =>
    by_cases h : a >>> 32 = 0xffff#128
    · have hmapped := (shift_eq_iff_mapped a).1 h
      refine .inl ⟨a.setWidth 32, if_pos h, .inr ?_⟩
      rw [← hmapped]
    · exact .inr ⟨a, if_neg h, rfl, h⟩

theorem mapped_injective {a b : BitVec 32} (h : mapped a = mapped b) : a = b := by
  rw [← mapped_setWidth a, h, mapped_setWidth]

theorem mapped_shift : mapped a >>> 32 = 0xffff#128 :=
  (shift_eq_iff_mapped _).2 (by rw [mapped_setWidth])

theorem equal_iff (ip jp : IP) : ip.equal jp = true ↔ ip.view = jp.view := by
  rcases ip.forms with ⟨a, ha, rfl | rfl⟩ | ⟨a, ha, rfl, hna⟩ <;>
    rcases jp.forms with ⟨b, hb, rfl | rfl⟩ | ⟨b, hb, rfl, hnb⟩ <;>
    rw [ha, hb] <;> simp only [IP.equal, beq_iff_eq, Sum.inl.injEq, Sum.inr.injEq, reduceCtorEq]
  · exact ⟨fun h => (mapped_injective h).symm, fun h => h ▸ rfl⟩
  · exact iff_false_intro fun h => hnb (h ▸ mapped_shift a)
  · exact ⟨mapped_injective, fun h => h ▸ rfl⟩
  · exact ⟨mapped_injective, fun h => h ▸ rfl⟩
  · exact iff_false_intro fun h => hnb (h ▸ mapped_shift a)
  · exact iff_false_intro fun h => hna (h ▸ mapped_shift b)
  · exact iff_false_intro fun h => hna (h ▸ mapped_shift b)

/-! ## Networks -/

/-- `net.IPMask` of 4 or of 16 bytes. -/
inductive IPMask
  | v4 (m : BitVec 32)
  | v6 (m : BitVec 128)

/-- `CIDRMask(ones, w)` -/
def cidrMask (ones w : Nat) : BitVec w := BitVec.allOnes w <<< (w - ones)

structure IPNet where
  ip : IP
  mask : IPMask

/-- What `networkNumberAndMask` returns: number and mask of 4 bytes, or of 16. -/
inductive Number
  | v4 (ip mask : BitVec 32)
  | v6 (ip mask : BitVec 128)

def IPNet.networkNumberAndMask (n : IPNet) : Option Number :=
  match n.ip.view, n.mask with
  | .inl ip, .v4 m => some (.v4 ip m)
  | .inl ip, .v6 m => some (.v4 ip (m.setWidth 32))
  | .inr _, .v4 _ => none
  | .inr ip, .v6 m => some (.v6 ip m)

def IPNet.contains (n : IPNet) (ip : IP) : Bool :=
  match n.networkNumberAndMask, ip.view with
  | some (.v4 nn m), .inl x => nn &&& m == x &&& m
  | some (.v6 nn m), .inr x => nn &&& m == x &&& m
  | _, _ => false

/-- The network that `ParseCIDR` makes of `a/ones`, `a` of 4 bytes. -/
def cidr4 (ones : Nat) : IPNet :=
  { ip := .v4 (a &&& cidrMask ones 32), mask := .v4 (cidrMask ones 32) }

/-- The network that `ParseCIDR` makes of `a/ones`, `a` of 16 bytes. -/
def cidr6 (a : BitVec 128) (ones : Nat) : IPNet :=
  { ip := .v6 (a &&& cidrMask ones 128), mask := .v6 (cidrMask ones 128) }

/-- `net.IPNet{IP: net.IPv4(...), Mask: net.CIDRMask(ones, 32)}` -/
def ipv4Net (ones : Nat) : IPNet :=
  { ip := .v6 (mapped a), mask := .v4 (cidrMask ones 32) }

/-! ## Ranges -/

/-- A set of addresses, given by prefixes of either form. -/
structure Ranges where
  v4 : List (Prefix 32)
  v6 : List (Prefix 128)

def Ranges.Has (r : Ranges) (ip : IP) : Prop :=
  match ip.view with
  | .inl a => Covers r.v4 a
  | .inr a => Covers r.v6 a

instance (r : Ranges) (ip : IP) : Decidable (r.Has ip) :=
  match h : ip.view with
  | .inl a => decidable_of_iff (Covers r.v4 a) (by rw [Ranges.Has, h])
  | .inr a => decidable_of_iff (Covers r.v6 a) (by rw [Ranges.Has, h])

variable {r : Ranges} {ip : IP}

theorem Ranges.has_inl {a : BitVec 32} (h : ip.view = .inl a) : r.Has ip ↔ Covers r.v4 a := by
  rw [Ranges.Has, h]

theorem Ranges.has_inr {a : BitVec 128} (h : ip.view = .inr a) : r.Has ip ↔ Covers r.v6 a := by
  rw [Ranges.Has, h]

def Ranges.Inside (r s : Ranges) : Prop := Lib.Inside r.v4 s.v4 ∧ Lib.Inside r.v6 s.v6

instance (r s : Ranges) : Decidable (r.Inside s) := inferInstanceAs (Decidable (_ ∧ _))

def Ranges.Apart (r s : Ranges) : Prop := Lib.Apart r.v4 s.v4 ∧ Lib.Apart r.v6 s.v6

instance (r s : Ranges) : Decidable (r.Apart s) := inferInstanceAs (Decidable (_ ∧ _))

def Ranges.append (r s : Ranges) : Ranges := { v4 := r.v4 ++ s.v4, v6 := r.v6 ++ s.v6 }

theorem Ranges.Has.of_inside {s : Ranges} (h : r.Has ip) (hrs : r.Inside s) : s.Has ip := by
  rcases hview : ip.view with a | a
  · exact (has_inl hview).2 (covers_of_inside hrs.1 ((has_inl hview).1 h))
  · exact (has_inr hview).2 (covers_of_inside hrs.2 ((has_inr hview).1 h))

theorem Ranges.Has.not_of_apart {s : Ranges} (h : r.Has ip) (hrs : r.Apart s) : ¬ s.Has ip := by
  rcases hview : ip.view with a | a
  · rw [has_inl hview] at h ⊢
    exact not_covers_of_apart hrs.1 h
  · rw [has_inr hview] at h ⊢
    exact not_covers_of_apart hrs.2 h

theorem Ranges.has_append {s : Ranges} : (r.append s).Has ip ↔ r.Has ip ∨ s.Has ip := by
  rcases hview : ip.view with a | a
  · rw [has_inl hview, has_inl hview, has_inl hview]
    exact covers_append
  · rw [has_inr hview, has_inr hview, has_inr hview]
    exact covers_append

theorem Ranges.has_congr {s : Ranges} (hrs : r.Inside s) (hsr : s.Inside r) : r.Has ip ↔ s.Has ip :=
  ⟨fun h => h.of_inside hrs, fun h => h.of_inside hsr⟩

theorem masked_beq_iff {w : Nat} (p : Prefix w) (x : BitVec w) :
    (p.bits &&& cidrMask p.length w == x &&& cidrMask p.length w) = true ↔ p.Has x := by
  rw [beq_iff_eq, cidrMask, and_mask_eq_iff]
  exact Iff.rfl

theorem and_mask_twice {w : Nat} (p m : BitVec w) : p &&& m &&& m = p &&& m := by
  rw [BitVec.and_assoc, BitVec.and_self]

theorem any_cidr4_iff (ps : List (Prefix 32)) :
    (ps.map fun p => cidr4 p.bits p.length).any (·.contains ip) = true ↔
      Ranges.Has { v4 := ps, v6 := [] } ip := by
  rcases hview : ip.view with x | x
  · rw [Ranges.has_inl hview]
    simp only [List.any_map, List.any_eq_true, Function.comp, IPNet.contains,
      IPNet.networkNumberAndMask, cidr4, view_v4, hview, and_mask_twice, masked_beq_iff, Covers]
  · rw [Ranges.has_inr hview]
    simp [IPNet.contains, IPNet.networkNumberAndMask, cidr4, hview]

theorem any_ipv4Net_iff (ps : List (Prefix 32)) :
    (ps.map fun p => ipv4Net p.bits p.length).any (·.contains ip) = true ↔
      Ranges.Has { v4 := ps, v6 := [] } ip := by
  rcases hview : ip.view with x | x
  · rw [Ranges.has_inl hview]
    simp only [List.any_map, List.any_eq_true, Function.comp, IPNet.contains,
      IPNet.networkNumberAndMask, ipv4Net, view_mapped, hview, masked_beq_iff, Covers]
  · rw [Ranges.has_inr hview]
    simp [IPNet.contains, IPNet.networkNumberAndMask, ipv4Net, hview]

def Unmapped (p : Prefix 128) : Prop :=
  (p.bits &&& cidrMask p.length 128) >>> 32 ≠ 0xffff#128

instance (p : Prefix 128) : Decidable (Unmapped p) := inferInstanceAs (Decidable (_ ≠ _))

theorem any_cidr6_inr (ps : List (Prefix 128)) {x : BitVec 128} (hview : ip.view = .inr x) :
    (ps.map fun p => cidr6 p.bits p.length).any (·.contains ip) = true ↔
      Covers (ps.filter fun p => Unmapped p) x := by
  simp only [List.any_map, List.any_eq_true, Function.comp, Covers, List.mem_filter,
    decide_eq_true_eq, and_assoc]
  refine exists_congr fun p => and_congr_right fun _ => ?_
  by_cases hp : Unmapped p
  · have hnumber : (cidr6 p.bits p.length).ip.view = .inr (p.bits &&& cidrMask p.length 128) :=
      view_of_not_mapped hp
    simp only [IPNet.contains, IPNet.networkNumberAndMask, hnumber, hview]
    simp only [cidr6, and_mask_twice, masked_beq_iff, hp, true_and]
  have hnumber : ∃ nn, (cidr6 p.bits p.length).ip.view = .inl nn :=
    ⟨_, if_pos (not_not.1 hp)⟩
  obtain ⟨nn, hnn⟩ := hnumber
  simp only [IPNet.contains, IPNet.networkNumberAndMask, hnn, hview, hp, false_and, iff_false]
  cases (cidr6 p.bits p.length).mask <;> exact Bool.false_ne_true

theorem any_cidr6_iff {ps : List (Prefix 128)} (hps : ∀ p ∈ ps, Unmapped p) :
    (ps.map fun p => cidr6 p.bits p.length).any (·.contains ip) = true ↔
      Ranges.Has { v4 := [], v6 := ps } ip := by
  rcases hview : ip.view with x | x
  · rw [Ranges.has_inl hview]
    simp only [List.any_map, List.any_eq_true, Function.comp, covers_nil, iff_false]
    rintro ⟨p, hp, h⟩
    have hnumber : (cidr6 p.bits p.length).ip.view = .inr (p.bits &&& cidrMask p.length 128) :=
      view_of_not_mapped (hps p hp)
    simp only [IPNet.contains, IPNet.networkNumberAndMask, hnumber, hview] at h
    simp [cidr6] at h
  have hall : (ps.filter fun p => Unmapped p) = ps :=
    List.filter_eq_self.2 fun p hp => decide_eq_true (hps p hp)
  rw [Ranges.has_inr hview, any_cidr6_inr ps hview, hall]

/-! ## Predicates -/

/-- The byte `a[i]` of 4 -/
def byte4 (i : Nat) : BitVec 8 := (a >>> (8 * (3 - i))).setWidth 8

/-- The byte `a[i]` of 16 -/
def byte6 (a : BitVec 128) (i : Nat) : BitVec 8 := (a >>> (8 * (15 - i))).setWidth 8

def ipv6loopback : IP := .v6 1#128

def ipv4zero : IP := .v6 (mapped 0#32)

def ipv6unspecified : IP := .v6 0#128

namespace IP

def isUnspecified (ip : IP) : Bool := ip.equal ipv4zero || ip.equal ipv6unspecified

def isLoopback (ip : IP) : Bool :=
  match ip.view with
  | .inl a => byte4 a 0 == 127
  | .inr _ => ip.equal ipv6loopback

def isPrivate (ip : IP) : Bool :=
  match ip.view with
  | .inl a =>
    byte4 a 0 == 10 || (byte4 a 0 == 172 && byte4 a 1 &&& 0xf0 == 16) ||
      (byte4 a 0 == 192 && byte4 a 1 == 168)
  | .inr a => byte6 a 0 &&& 0xfe == 0xfc

def isMulticast (ip : IP) : Bool :=
  match ip.view with
  | .inl a => byte4 a 0 &&& 0xf0 == 0xe0
  | .inr a => byte6 a 0 == 0xff

/-- `IsInterfaceLocalMulticast`, which does not look for a 4-byte form -/
def isInterfaceLocalMulticast : IP → Bool
  | .v4 _ => false
  | .v6 a => byte6 a 0 == 0xff && byte6 a 1 &&& 0x0f == 0x01

def isLinkLocalMulticast (ip : IP) : Bool :=
  match ip.view with
  | .inl a => byte4 a 0 == 224 && byte4 a 1 == 0 && byte4 a 2 == 0
  | .inr a => byte6 a 0 == 0xff && byte6 a 1 &&& 0x0f == 0x02

def isLinkLocalUnicast (ip : IP) : Bool :=
  match ip.view with
  | .inl a => byte4 a 0 == 169 && byte4 a 1 == 254
  | .inr a => byte6 a 0 == 0xfe && byte6 a 1 &&& 0xc0 == 0x80

end IP

/-! ## What the predicates check -/

theorem covers_single_iff {w : Nat} (p a : BitVec w) (length : Nat) :
    Covers [⟨p, length⟩] a ↔
      a.toNat / 2 ^ (w - length) = p.toNat / 2 ^ (w - length) := by
  simp only [Covers, Prefix.Has, List.mem_singleton, exists_eq_left, ← toNat_inj,
    toNat_ushiftRight, Nat.shiftRight_eq_div_pow]

theorem byte4_toNat (a : BitVec 32) (i : Nat) :
    (byte4 a i).toNat = a.toNat / 2 ^ (8 * (3 - i)) % 256 := by
  rw [byte4, toNat_setWidth, toNat_ushiftRight, Nat.shiftRight_eq_div_pow]

theorem byte6_toNat (a : BitVec 128) (i : Nat) :
    (byte6 a i).toNat = a.toNat / 2 ^ (8 * (15 - i)) % 256 := by
  rw [byte6, toNat_setWidth, toNat_ushiftRight, Nat.shiftRight_eq_div_pow]

theorem and_f0_eq_e0 : ∀ x : BitVec 8, x &&& 0xf0 = 0xe0 ↔ x.toNat / 16 = 14 := by decide

theorem and_fe_eq_fc : ∀ x : BitVec 8, x &&& 0xfe = 0xfc ↔ x.toNat / 2 = 126 := by decide

theorem and_c0_eq_80 : ∀ x : BitVec 8, x &&& 0xc0 = 0x80 ↔ x.toNat / 64 = 2 := by decide

theorem byte_eq_iff (x c : BitVec 8) : (x == c) = true ↔ x.toNat = c.toNat := by
  rw [beq_iff_eq, toNat_inj]

theorem isUnspecified_iff : ip.isUnspecified = true ↔
    Ranges.Has { v4 := [⟨0#32, 32⟩], v6 := [⟨0#128, 128⟩] }
      ip := by
  have hzero : ipv4zero.view = .inl 0#32 := view_mapped 0#32
  have hnone : ipv6unspecified.view = .inr 0#128 := by decide
  rw [IP.isUnspecified, Bool.or_eq_true, equal_iff, equal_iff, hzero, hnone]
  rcases hview : ip.view with a | a
  · rw [Ranges.has_inl hview, covers_single_iff]
    simp [← toNat_inj]
  · rw [Ranges.has_inr hview, covers_single_iff]
    simp [← toNat_inj]

theorem isLoopback_iff : ip.isLoopback = true ↔
    Ranges.Has
      { v4 := [⟨ipv4 127 0 0 0, 8⟩], v6 := [⟨1#128, 128⟩] }
      ip := by
  have hloop : ipv6loopback.view = .inr 1#128 := by decide
  rcases hview : ip.view with a | a
  · rw [Ranges.has_inl hview, covers_single_iff]
    simp only [IP.isLoopback, hview, byte_eq_iff, byte4_toNat]
    show a.toNat / 2 ^ 24 % 256 = 127 ↔ a.toNat / 2 ^ 24 = 127
    omega
  rw [Ranges.has_inr hview, covers_single_iff]
  simp only [IP.isLoopback, hview, equal_iff, hloop, Sum.inr.injEq, ← toNat_inj]
  omega

theorem isMulticast_iff : ip.isMulticast = true ↔
    Ranges.Has
      { v4 := [⟨ipv4 224 0 0 0, 4⟩]
        v6 := [⟨ipv6 0xff00 0 0 0 0 0 0 0, 8⟩] } ip := by
  rcases hview : ip.view with a | a
  · rw [Ranges.has_inl hview, covers_single_iff]
    simp only [IP.isMulticast, hview, beq_iff_eq, and_f0_eq_e0, byte4_toNat]
    show a.toNat / 2 ^ 24 % 256 / 16 = 14 ↔ a.toNat / 2 ^ 28 = 14
    omega
  rw [Ranges.has_inr hview, covers_single_iff]
  simp only [IP.isMulticast, hview, byte_eq_iff, byte6_toNat]
  show a.toNat / 2 ^ 120 % 256 = 255 ↔ a.toNat / 2 ^ 120 = 255
  omega

theorem isLinkLocalUnicast_iff : ip.isLinkLocalUnicast = true ↔
    Ranges.Has
      { v4 := [⟨ipv4 169 254 0 0, 16⟩]
        v6 := [⟨ipv6 0xfe80 0 0 0 0 0 0 0, 10⟩] } ip := by
  rcases hview : ip.view with a | a
  · rw [Ranges.has_inl hview, covers_single_iff]
    simp only [IP.isLinkLocalUnicast, hview, Bool.and_eq_true, byte_eq_iff, byte4_toNat]
    show a.toNat / 2 ^ 24 % 256 = 169 ∧ a.toNat / 2 ^ 16 % 256 = 254 ↔
      a.toNat / 2 ^ 16 = 169 * 256 + 254
    omega
  rw [Ranges.has_inr hview, covers_single_iff]
  simp only [IP.isLinkLocalUnicast, hview, Bool.and_eq_true, beq_iff_eq, and_c0_eq_80]
  rw [← toNat_inj, byte6_toNat, byte6_toNat]
  show a.toNat / 2 ^ 120 % 256 = 254 ∧ a.toNat / 2 ^ 112 % 256 / 64 = 2 ↔
    a.toNat / 2 ^ 118 = 254 * 4 + 2
  omega

theorem isPrivate_iff {a : BitVec 128} (hview : ip.view = .inr a) : ip.isPrivate = true ↔
    Covers [⟨ipv6 0xfc00 0 0 0 0 0 0 0, 7⟩] a := by
  rw [covers_single_iff]
  simp only [IP.isPrivate, hview, beq_iff_eq, and_fe_eq_fc, byte6_toNat]
  show a.toNat / 2 ^ 120 % 256 / 2 = 126 ↔ a.toNat / 2 ^ 121 = 126
  omega

theorem isMulticast_of_isLinkLocalMulticast (h : ip.isLinkLocalMulticast = true) :
    ip.isMulticast = true := by
  rcases hview : ip.view with a | a
  · simp only [IP.isLinkLocalMulticast, hview, Bool.and_eq_true, byte_eq_iff] at h
    simp only [IP.isMulticast, hview, beq_iff_eq, and_f0_eq_e0]
    rw [h.1.1]
    rfl
  simp only [IP.isLinkLocalMulticast, hview, Bool.and_eq_true] at h
  simp only [IP.isMulticast, hview]
  exact h.1

theorem isMulticast_of_isInterfaceLocalMulticast (h : ip.isInterfaceLocalMulticast = true) :
    ip.isMulticast = true := by
  rcases ip.forms with ⟨a, ha, rfl | rfl⟩ | ⟨a, ha, rfl, -⟩
  · exact Bool.noConfusion h
  · -- the first byte of a mapped address is zero
    have hbyte : byte6 (mapped a) 0 = 0 := by
      rw [← toNat_inj, byte6_toNat, mapped_toNat]
      have := a.isLt
      show (0xffff * 2 ^ 32 + a.toNat) / 2 ^ 120 % 256 = 0
      omega
    simp [IP.isInterfaceLocalMulticast, hbyte] at h
  simp only [IP.isInterfaceLocalMulticast, Bool.and_eq_true] at h
  simp only [IP.isMulticast, ha]
  exact h.1

end NewApi.Lib.NetIP
