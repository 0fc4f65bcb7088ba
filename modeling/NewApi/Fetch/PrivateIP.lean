/-
  NewApi.Fetch.PrivateIP

  The three classifiers of addresses that must not be reached: `isPrivateIP` of
  `common/ssrf_protection.go` (the protected fetch), `IsPrivateIP` of
  `common/ip.go`, and the blocked ranges of `service/url_guard.go`.

  Each is shown to check the prefixes of a `Ranges`; the three are then compared
  as lists.  They are meant to denote one set and do not: `disputed` is where
  they part.
-/

import NewApi.Lib.NetIP

namespace NewApi.Fetch

open Lib Lib.NetIP

/-! ## common/ssrf_protection.go -/

/-- Number and mask of `privateIPv4Nets`. -/
def privateIPv4 : List (Prefix 32) :=
  [⟨ipv4 0 0 0 0, 8⟩,
   ⟨ipv4 10 0 0 0, 8⟩,
   ⟨ipv4 100 64 0 0, 10⟩,
   ⟨ipv4 127 0 0 0, 8⟩,
   ⟨ipv4 169 254 0 0, 16⟩,
   ⟨ipv4 172 16 0 0, 12⟩,
   ⟨ipv4 192 0 0 0, 24⟩,
   ⟨ipv4 192 0 2 0, 24⟩,
   ⟨ipv4 192 168 0 0, 16⟩,
   ⟨ipv4 198 18 0 0, 15⟩,
   ⟨ipv4 198 51 100 0, 24⟩,
   ⟨ipv4 203 0 113 0, 24⟩,
   ⟨ipv4 224 0 0 0, 4⟩,
   ⟨ipv4 240 0 0 0, 4⟩,
   ⟨ipv4 255 255 255 255, 32⟩]

def privateIPv4Nets : List IPNet := privateIPv4.map fun p => ipv4Net p.bits p.length

/-- Number and mask of `privateIPv6Nets`. -/
def privateIPv6 : List (Prefix 128) :=
  [⟨ipv6 0 0 0 0 0 0 0 0, 128⟩,
   ⟨ipv6 0 0 0 0 0 0 0 1, 128⟩,
   ⟨ipv6 0 0 0 0 0 0xffff 0 0, 96⟩,
   ⟨ipv6 0x64 0xff9b 0 0 0 0 0 0, 96⟩,
   ⟨ipv6 0x100 0 0 0 0 0 0 0, 64⟩,
   ⟨ipv6 0x2001 0 0 0 0 0 0 0, 23⟩,
   ⟨ipv6 0x2001 0xdb8 0 0 0 0 0 0, 32⟩,
   ⟨ipv6 0xfc00 0 0 0 0 0 0 0, 7⟩,
   ⟨ipv6 0xfe80 0 0 0 0 0 0 0, 10⟩,
   ⟨ipv6 0xff00 0 0 0 0 0 0 0, 8⟩]

def privateIPv6Nets : List IPNet := privateIPv6.map fun p => cidr6 p.bits p.length

/-- The last part of `isPrivateIP`: the two lists. -/
def listed (ip : IP) : Bool :=
  match ip.to4 with
  | some v4 => privateIPv4Nets.any (·.contains (.v4 v4))
  | none => if privateIPv6Nets.any (·.contains ip) then true else ip.isPrivate

/-- `isPrivateIP` of the protected fetch; `nil` is private. -/
def isPrivateIP : Option IP → Bool
  | none => true
  | some ip =>
    if ip.isUnspecified then true
    else if ip.isLoopback || ip.isLinkLocalUnicast || ip.isLinkLocalMulticast then true
    else if ip.isInterfaceLocalMulticast then true
    else listed ip

/-! ## common/ip.go -/

/-- Number and mask of the list in `IsPrivateIP`. -/
def private4 : List (Prefix 32) :=
  [⟨ipv4 10 0 0 0, 8⟩,
   ⟨ipv4 100 64 0 0, 10⟩,
   ⟨ipv4 172 16 0 0, 12⟩,
   ⟨ipv4 192 168 0 0, 16⟩,
   ⟨ipv4 169 254 0 0, 16⟩,
   ⟨ipv4 127 0 0 0, 8⟩,
   ⟨ipv4 0 0 0 0, 8⟩]

/-- `IsPrivateIP` of `common` -/
def IsPrivateIP (ip : IP) : Bool :=
  if ip.isLoopback || ip.isLinkLocalUnicast || ip.isLinkLocalMulticast ||
      ip.isUnspecified || ip.isMulticast || ip.isInterfaceLocalMulticast then true
  else if (private4.map fun p => ipv4Net p.bits p.length).any (·.contains ip) then true
  else if ip.to4.isNone then ip.isPrivate
  else false

/-! ## service/url_guard.go -/

/-- The entries of `ssrfBlockedCIDRs` of 4 bytes. -/
def blocked4 : List (Prefix 32) :=
  [⟨ipv4 0 0 0 0, 8⟩,
   ⟨ipv4 10 0 0 0, 8⟩,
   ⟨ipv4 100 64 0 0, 10⟩,
   ⟨ipv4 127 0 0 0, 8⟩,
   ⟨ipv4 169 254 0 0, 16⟩,
   ⟨ipv4 172 16 0 0, 12⟩,
   ⟨ipv4 192 0 0 0, 24⟩,
   ⟨ipv4 192 0 2 0, 24⟩,
   ⟨ipv4 192 168 0 0, 16⟩,
   ⟨ipv4 198 18 0 0, 15⟩,
   ⟨ipv4 198 51 100 0, 24⟩,
   ⟨ipv4 203 0 113 0, 24⟩,
   ⟨ipv4 224 0 0 0, 4⟩,
   ⟨ipv4 240 0 0 0, 4⟩,
   ⟨ipv4 255 255 255 255, 32⟩]

/-- The entries of `ssrfBlockedCIDRs` of 16 bytes. -/
def blocked6 : List (Prefix 128) :=
  [⟨ipv6 0 0 0 0 0 0 0 0, 128⟩,
   ⟨ipv6 0 0 0 0 0 0 0 1, 128⟩,
   ⟨ipv6 0x64 0xff9b 0 0 0 0 0 0, 96⟩,
   ⟨ipv6 0xfc00 0 0 0 0 0 0 0, 7⟩,
   ⟨ipv6 0xfe80 0 0 0 0 0 0 0, 10⟩]

def ssrfBlockedCIDRs : List IPNet :=
  (blocked4.map fun p => cidr4 p.bits p.length) ++ blocked6.map fun p => cidr6 p.bits p.length

/-- Why an upstream address is refused; an `IP` and a network are printed into
    the text. -/
inductive Refusal
  | lookupFailed (err : String)
  | noAddress
  | blocked (ip : IP) (cidr : IPNet)

/-- The loop over `ssrfBlockedCIDRs`: the first range that has the address. -/
def blockedBy (ip : IP) : Option Refusal :=
  (ssrfBlockedCIDRs.find? (·.contains ip)).map (.blocked ip)

/-- `validateLiteralIP`; `none` is no error. -/
def validateLiteralIP (ip : IP) : Option Refusal := blockedBy ip

/-- `lookupSSRF` after the answer of the resolver; `none` is allowed. -/
def lookupSSRF : Except String (List IP) → Option Refusal
  | .error err => some (.lookupFailed err)
  | .ok [] => some .noAddress
  | .ok ips => ips.findSome? blockedBy

/-! ## What each of them checks -/

/-- The addresses of `isPrivateIP`. -/
def fetchRanges : Ranges := { v4 := privateIPv4, v6 := privateIPv6.filter fun p => Unmapped p }

/-- The addresses of `IsPrivateIP`. -/
def commonRanges : Ranges where
  v4 := ⟨ipv4 224 0 0 0, 4⟩ :: private4
  v6 :=
    [⟨ipv6 0 0 0 0 0 0 0 0, 128⟩,
     ⟨ipv6 0 0 0 0 0 0 0 1, 128⟩,
     ⟨ipv6 0xfc00 0 0 0 0 0 0 0, 7⟩,
     ⟨ipv6 0xfe80 0 0 0 0 0 0 0, 10⟩,
     ⟨ipv6 0xff00 0 0 0 0 0 0 0, 8⟩]

/-- The addresses of `ssrfBlockedCIDRs`. -/
def blockedRanges : Ranges := { v4 := blocked4, v6 := blocked6 }

variable {ip : IP}

theorem to4_of_inl {a : BitVec 32} (h : ip.view = .inl a) : ip.to4 = some a := by
  rw [IP.to4, h]
  rfl

theorem to4_of_inr {a : BitVec 128} (h : ip.view = .inr a) : ip.to4 = none := by
  rw [IP.to4, h]
  rfl

theorem listed_iff : listed ip = true ↔ fetchRanges.Has ip := by
  unfold listed
  rcases hview : ip.view with a | a
  · rw [to4_of_inl hview, Ranges.has_inl hview]
    exact (any_ipv4Net_iff privateIPv4).trans (Ranges.has_inl rfl)
  have hula : ip.isPrivate = true → fetchRanges.Has ip := fun h =>
    (Ranges.has_inr hview).2 (covers_of_inside (by decide) ((isPrivate_iff hview).1 h))
  have hlisted : privateIPv6Nets.any (·.contains ip) = true ↔ fetchRanges.Has ip :=
    (any_cidr6_inr privateIPv6 hview).trans (Ranges.has_inr (r := fetchRanges) hview).symm
  rw [to4_of_inr hview]
  by_cases hany : privateIPv6Nets.any (·.contains ip) = true
  · simp only [hany, if_true, true_iff]
    exact hlisted.1 hany
  · simp only [hany]
    exact ⟨hula, fun h => absurd (hlisted.2 h) hany⟩

/-- **`isPrivateIP` checks `fetchRanges`.** -/
theorem isPrivateIP_iff : isPrivateIP (some ip) = true ↔ fetchRanges.Has ip := by
  have hmulticast : ip.isMulticast = true → fetchRanges.Has ip := fun h =>
    (isMulticast_iff.1 h).of_inside (by decide)
  unfold isPrivateIP
  simp only
  by_cases hunspecified : ip.isUnspecified = true
  · rw [if_pos hunspecified]
    exact ⟨fun _ => (isUnspecified_iff.1 hunspecified).of_inside (by decide), fun _ => rfl⟩
  rw [if_neg hunspecified]
  by_cases hlocal :
      (ip.isLoopback || ip.isLinkLocalUnicast || ip.isLinkLocalMulticast) = true
  · rw [if_pos hlocal]
    refine ⟨fun _ => ?_, fun _ => rfl⟩
    rcases Bool.or_eq_true_iff.1 hlocal with hlocal | hllm
    · rcases Bool.or_eq_true_iff.1 hlocal with hloop | hllu
      · exact (isLoopback_iff.1 hloop).of_inside (by decide)
      · exact (isLinkLocalUnicast_iff.1 hllu).of_inside (by decide)
    · exact hmulticast (isMulticast_of_isLinkLocalMulticast hllm)
  rw [if_neg hlocal]
  by_cases hilm : ip.isInterfaceLocalMulticast = true
  · rw [if_pos hilm]
    exact ⟨fun _ => hmulticast (isMulticast_of_isInterfaceLocalMulticast hilm), fun _ => rfl⟩
  rw [if_neg hilm]
  exact listed_iff

/-- **`IsPrivateIP` checks `commonRanges`.** -/
theorem IsPrivateIP_iff : IsPrivateIP ip = true ↔ commonRanges.Has ip := by
  have hmulticast : ip.isMulticast = true → commonRanges.Has ip := fun h =>
    (isMulticast_iff.1 h).of_inside (by decide)
  unfold IsPrivateIP
  by_cases hspecial : (ip.isLoopback || ip.isLinkLocalUnicast || ip.isLinkLocalMulticast ||
      ip.isUnspecified || ip.isMulticast || ip.isInterfaceLocalMulticast) = true
  · rw [if_pos hspecial]
    refine ⟨fun _ => ?_, fun _ => rfl⟩
    simp only [Bool.or_eq_true, or_assoc] at hspecial
    rcases hspecial with h | h | h | h | h | h
    · exact (isLoopback_iff.1 h).of_inside (by decide)
    · exact (isLinkLocalUnicast_iff.1 h).of_inside (by decide)
    · exact hmulticast (isMulticast_of_isLinkLocalMulticast h)
    · exact (isUnspecified_iff.1 h).of_inside (by decide)
    · exact hmulticast h
    · exact hmulticast (isMulticast_of_isInterfaceLocalMulticast h)
  rw [if_neg hspecial]
  simp only [Bool.or_eq_true, or_assoc, not_or] at hspecial
  obtain ⟨hloop, hllu, -, hunspecified, hmc, -⟩ := hspecial
  by_cases hlist : (private4.map fun p => ipv4Net p.bits p.length).any (·.contains ip) = true
  · rw [if_pos hlist]
    exact ⟨fun _ => ((any_ipv4Net_iff private4).1 hlist).of_inside (by decide), fun _ => rfl⟩
  rw [if_neg hlist]
  -- what is left of the ranges: the predicates and the list have the others
  have hrest : commonRanges.Has ip →
      Ranges.Has { v4 := [], v6 := [⟨ipv6 0xfc00 0 0 0 0 0 0 0, 7⟩] } ip := by
    rcases hview : ip.view with a | a
    · intro h
      rcases covers_cons.1 ((Ranges.has_inl hview).1 h) with h | h
      · exact absurd (isMulticast_iff.2 ((Ranges.has_inl hview).2 ⟨_, List.mem_singleton_self _, h⟩))
          hmc
      · exact absurd ((any_ipv4Net_iff private4).2 ((Ranges.has_inl hview).2 h)) hlist
    intro h
    refine (Ranges.has_inr hview).2 ?_
    have hnot : ∀ {r : Ranges}, ¬ r.Has ip → ¬ Covers r.v6 a := fun hr ha =>
      hr ((Ranges.has_inr hview).2 ha)
    have h1 := hnot (fun h => hunspecified (isUnspecified_iff.2 h))
    have h2 := hnot (fun h => hloop (isLoopback_iff.2 h))
    have h3 := hnot (fun h => hllu (isLinkLocalUnicast_iff.2 h))
    have h4 := hnot (fun h => hmc (isMulticast_iff.2 h))
    have hall := (Ranges.has_inr hview).1 h
    simp only [commonRanges, covers_cons, covers_nil, or_false] at hall h1 h2 h3 h4 ⊢
    rcases hall with h | h | h | h | h
    · exact absurd h h1
    · exact absurd h h2
    · exact h
    · exact absurd h h3
    · exact absurd h h4
  rcases hview : ip.view with a | a
  · rw [to4_of_inl hview]
    refine ⟨fun h => Bool.noConfusion h, fun h => ?_⟩
    exact absurd ((Ranges.has_inl hview).1 (hrest h)) covers_nil
  rw [to4_of_inr hview]
  simp only [Option.isNone_none, if_true]
  rw [isPrivate_iff hview]
  refine ⟨fun h => ?_, fun h => (Ranges.has_inr hview).1 (hrest h)⟩
  exact (Ranges.has_inr hview).2 (covers_of_inside (by decide) h)

/-- **The guard of channel URLs checks `blockedRanges`.** -/
theorem blocked_iff : ssrfBlockedCIDRs.any (·.contains ip) = true ↔ blockedRanges.Has ip := by
  rw [ssrfBlockedCIDRs, List.any_append, Bool.or_eq_true, any_cidr4_iff,
    any_cidr6_iff (by decide), ← Ranges.has_append]
  rfl

theorem blockedBy_isSome : (blockedBy ip).isSome = ssrfBlockedCIDRs.any (·.contains ip) := by
  rw [blockedBy, Option.isSome_map, Bool.eq_iff_iff, List.find?_isSome, List.any_eq_true]

theorem lookupSSRF_isSome_iff (ips : List IP) : (lookupSSRF (.ok ips)).isSome = true ↔
      ips = [] ∨ ∃ ip ∈ ips, (validateLiteralIP ip).isSome = true := by
  cases ips with
  | nil => simp [lookupSSRF]
  | cons ip ips =>
    simp only [lookupSSRF, List.findSome?_isSome_iff, reduceCtorEq, false_or]
    exact Iff.rfl

/-! ## Where they agree -/

/-- The addresses of `isPrivateIP` that `IsPrivateIP` lacks. -/
def uncommon : Ranges where
  v4 :=
    [⟨ipv4 192 0 0 0, 24⟩,
     ⟨ipv4 192 0 2 0, 24⟩,
     ⟨ipv4 198 18 0 0, 15⟩,
     ⟨ipv4 198 51 100 0, 24⟩,
     ⟨ipv4 203 0 113 0, 24⟩,
     ⟨ipv4 240 0 0 0, 4⟩]
  v6 :=
    [⟨ipv6 0x64 0xff9b 0 0 0 0 0 0, 96⟩,
     ⟨ipv6 0x100 0 0 0 0 0 0 0, 64⟩,
     ⟨ipv6 0x2001 0 0 0 0 0 0 0, 23⟩,
     ⟨ipv6 0x2001 0xdb8 0 0 0 0 0 0, 32⟩]

/-- The addresses of `isPrivateIP` that the guard of channel URLs lacks. -/
def unblocked : Ranges where
  v4 := []
  v6 :=
    [⟨ipv6 0x100 0 0 0 0 0 0 0, 64⟩,
     ⟨ipv6 0x2001 0 0 0 0 0 0 0, 23⟩,
     ⟨ipv6 0x2001 0xdb8 0 0 0 0 0 0, 32⟩,
     ⟨ipv6 0xff00 0 0 0 0 0 0 0, 8⟩]

def disputed : Ranges where
  v4 := uncommon.v4
  v6 := uncommon.v6 ++ [⟨ipv6 0xff00 0 0 0 0 0 0 0, 8⟩]

theorem fetch_iff_common : fetchRanges.Has ip ↔ commonRanges.Has ip ∨ uncommon.Has ip := by
  rw [← Ranges.has_append]
  exact Ranges.has_congr (by decide) (by decide)

theorem fetch_iff_blocked : fetchRanges.Has ip ↔ blockedRanges.Has ip ∨ unblocked.Has ip := by
  rw [← Ranges.has_append]
  exact Ranges.has_congr (by decide) (by decide)

theorem common_agrees_iff : IsPrivateIP ip = isPrivateIP (some ip) ↔ ¬ uncommon.Has ip := by
  rw [Bool.eq_iff_iff, IsPrivateIP_iff, isPrivateIP_iff, fetch_iff_common]
  constructor
  · intro h huncommon
    exact huncommon.not_of_apart (by decide) (h.2 (.inr huncommon))
  · intro h
    exact ⟨.inl, fun hor => hor.resolve_right h⟩

theorem blocked_agrees_iff :
    (validateLiteralIP ip).isSome = isPrivateIP (some ip) ↔ ¬ unblocked.Has ip := by
  rw [validateLiteralIP, blockedBy_isSome, Bool.eq_iff_iff, blocked_iff, isPrivateIP_iff,
    fetch_iff_blocked]
  constructor
  · intro h hunblocked
    exact hunblocked.not_of_apart (by decide) (h.2 (.inr hunblocked))
  · intro h
    exact ⟨.inl, fun hor => hor.resolve_right h⟩

theorem verdicts_of_view {ip jp : IP} (h : ip.view = jp.view) :
    isPrivateIP (some ip) = isPrivateIP (some jp) ∧ IsPrivateIP ip = IsPrivateIP jp ∧
      (validateLiteralIP ip).isSome = (validateLiteralIP jp).isSome := by
  have hhas : ∀ r : Ranges, r.Has ip ↔ r.Has jp := fun r => by
    unfold Ranges.Has
    rw [h]
  refine ⟨?_, ?_, ?_⟩
  · rw [Bool.eq_iff_iff, isPrivateIP_iff, isPrivateIP_iff, hhas]
  · rw [Bool.eq_iff_iff, IsPrivateIP_iff, IsPrivateIP_iff, hhas]
  · rw [validateLiteralIP, validateLiteralIP, blockedBy_isSome, blockedBy_isSome,
      Bool.eq_iff_iff, blocked_iff, blocked_iff, hhas]

/-- The classifiers give one verdict on the address, in either form of it. -/
structure Agreed (ip : IP) : Prop where
  common : IsPrivateIP ip = isPrivateIP (some ip)
  literal : (validateLiteralIP ip).isSome = isPrivateIP (some ip)
  resolved : (lookupSSRF (.ok [ip])).isSome = isPrivateIP (some ip)
  forms : ∀ a, ip = .v4 a →
    isPrivateIP (some (.v6 (mapped a))) = isPrivateIP (some ip) ∧
      IsPrivateIP (.v6 (mapped a)) = IsPrivateIP ip ∧
      (validateLiteralIP (.v6 (mapped a))).isSome = (validateLiteralIP ip).isSome

theorem forms_agree (a : BitVec 32) :
    isPrivateIP (some (.v6 (mapped a))) = isPrivateIP (some (.v4 a)) ∧
      IsPrivateIP (.v6 (mapped a)) = IsPrivateIP (.v4 a) ∧
      (validateLiteralIP (.v6 (mapped a))).isSome = (validateLiteralIP (.v4 a)).isSome :=
  verdicts_of_view (view_mapped a)

/-- **The classifiers agree on an address unless it is a disputed one.** -/
theorem agreed_iff (ip : IP) : Agreed ip ↔ ¬ disputed.Has ip := by
  have hresolved : (lookupSSRF (.ok [ip])).isSome = (validateLiteralIP ip).isSome := by
    rw [Bool.eq_iff_iff, lookupSSRF_isSome_iff]
    simp
  have hdisputed : disputed.Has ip ↔ uncommon.Has ip ∨ unblocked.Has ip := by
    rw [← Ranges.has_append]
    exact Ranges.has_congr (by decide) (by decide)
  rw [hdisputed, not_or]
  constructor
  · intro h
    exact ⟨common_agrees_iff.1 h.common, blocked_agrees_iff.1 h.literal⟩
  rintro ⟨hcommon, hblocked⟩
  refine ⟨common_agrees_iff.2 hcommon, blocked_agrees_iff.2 hblocked, ?_, ?_⟩
  · exact hresolved.trans (blocked_agrees_iff.2 hblocked)
  · rintro a rfl
    exact forms_agree a

/-- `192.0.2.1` and `2001:db8::1`, both kept for documentation. -/
theorem documentation_addresses_judged_differently :
    (isPrivateIP (some (.v4 (ipv4 192 0 2 1))) = true ∧ IsPrivateIP (.v4 (ipv4 192 0 2 1)) = false) ∧
      (isPrivateIP (some (.v6 (ipv6 0x2001 0xdb8 0 0 0 0 0 1))) = true ∧
        validateLiteralIP (.v6 (ipv6 0x2001 0xdb8 0 0 0 0 0 1)) = none) := by
  decide

end NewApi.Fetch
