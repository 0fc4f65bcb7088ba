/-
  NewApi.Fetch.ProtectedDial

  `protectedFetchDialer.DialContext` of `service/protected_fetch_client.go` with
  the checks of `common/ssrf_protection.go`.

  What is dialed is always a literal address that has passed the checks of
  addresses and ports, whatever the resolver answers (`dialed_reached`).  The
  check of names does not look at names as DNS does: it ignores letter case but
  not a trailing dot, and it looks at the name without the space around it, where
  the resolver is asked for the name with it.  `Harmless` says when that does not
  matter.

  The functions of `net` and `strconv` that read and print texts are parameters.
-/

import NewApi.Fetch.PrivateIP
import NewApi.Lib.Text

namespace NewApi.Fetch

open List (mem_cons mem_singleton not_mem_nil)
open Lib Lib.NetIP Lib.Text

/-- The functions of `net`, `strconv` and `unicode` on texts. -/
structure Texts where
  /-- `unicode.ToLower` -/
  lower : Char → Char
  /-- `net.ParseIP` -/
  parseIP : String → Option IP
  /-- `net.ParseCIDR`, its network -/
  parseCIDR : String → Option IPNet
  /-- `IP.String` -/
  ipString : IP → String
  /-- `net.SplitHostPort` -/
  splitHostPort : String → Except String (String × String)
  /-- `strconv.Atoi` -/
  atoi : String → Option Int
  /-- An address is written without space around it. -/
  parseIP_trim : ∀ s ip, parseIP s = some ip → trimSpace s = s

def joinHostPort (host port : String) : String :=
  if ':' ∈ host.toList then "[" ++ host ++ "]:" ++ port else host ++ ":" ++ port

structure SSRFProtection where
  allowPrivateIp : Bool
  domainFilterMode : Bool
  domainList : List String
  ipFilterMode : Bool
  ipList : List String
  allowedPorts : List Int
  applyIPFilterForDomain : Bool

/-! ## common/ssrf_protection.go -/

variable (T : Texts)

/-- The comparison of a name with an entry of the list, in `isDomainListed`. -/
def matchesItem (domain item : String) : Bool :=
  if item = "" then false
  else if domain = item then true
  else
    match cutPrefix item "*." with
    | some suffix => hasSuffix domain ("." ++ suffix) || domain == suffix
    | none => false

def isDomainListed (domain : String) (list : List String) : Bool :=
  list.any fun item => matchesItem (toLower T.lower domain) (toLower T.lower (trimSpace item))

def isIpInCIDRList (ip : IP) (cidrList : List String) : Bool :=
  cidrList.any fun cidr =>
    match T.parseCIDR cidr with
    | some network => network.contains ip
    | none =>
      match T.parseIP cidr with
      | some whitelistIP => ip.equal whitelistIP
      | none => false

namespace SSRFProtection

variable (p : SSRFProtection)

def isAllowedPort (port : Int) : Bool := p.allowedPorts.isEmpty || p.allowedPorts.contains port

def isDomainAllowed (domain : String) : Bool :=
  if p.domainFilterMode then isDomainListed T domain p.domainList
  else !isDomainListed T domain p.domainList

def isIPAccessAllowed (ip : IP) : Bool :=
  if isPrivateIP (some ip) && !p.allowPrivateIp then false
  else if p.ipFilterMode then isIpInCIDRList T ip p.ipList
  else !isIpInCIDRList T ip p.ipList

def ipAccessError (host : String) (ip : IP) : String :=
  let who :=
    if host ≠ "" then host ++ " resolves to " ++ T.ipString ip else T.ipString ip
  if isPrivateIP (some ip) && !p.allowPrivateIp then "private IP address not allowed: " ++ who
  else if p.ipFilterMode then "ip not in whitelist: " ++ who
  else "ip in blacklist: " ++ who

/-- `ValidateNetworkTarget`; `none` is no error. -/
def validateNetworkTarget (host : String) (port : Int) : Option String :=
  let host := trimSpace host
  if host = "" then some "invalid host"
  else if port < 1 ∨ 65535 < port then some ("invalid port: " ++ toString port)
  else if !p.isAllowedPort port then some ("port " ++ toString port ++ " is not allowed")
  else
    match T.parseIP host with
    | some ip => if !p.isIPAccessAllowed T ip then some (p.ipAccessError T "" ip) else none
    | none =>
      if !p.isDomainAllowed T host then
        if p.domainFilterMode then some ("domain not in whitelist: " ++ host)
        else some ("domain in blacklist: " ++ host)
      else none

def validateResolvedIP (host : String) (ip : IP) : Option String :=
  if !p.isIPAccessAllowed T ip then some (p.ipAccessError T host ip) else none

end SSRFProtection

/-! ## service/protected_fetch_client.go -/

def networkAllowsIP (network : String) (ip : IP) : Bool :=
  if network = "tcp4" then ip.to4.isSome
  else if network = "tcp6" then ip.to4.isNone
  else true

/-- What a call of `DialContext` meets: the resolver, which may answer `nil`
    addresses, and how each of the raw dials fails (`none` connects). -/
structure Network where
  lookupIPAddr : String → Except String (List (Option IP))
  dial : Nat → Option String

/-- The addresses handed to the raw dialer, and the error returned. -/
structure Dialing where
  dialed : List String
  err : Option String

/-- The loop over what was resolved. -/
def candidateIPs (p : SSRFProtection) (network host : String) :
    List (Option IP) → Except String (List IP)
  | [] => .ok []
  | none :: resolved => candidateIPs p network host resolved
  | some ip :: resolved =>
    if !networkAllowsIP network ip then candidateIPs p network host resolved
    else
      match p.validateResolvedIP T host ip with
      | some err => .error err
      | none => (candidateIPs p network host resolved).map (ip :: ·)

/-- The loop over the candidates: the `i`th raw dial is next, and `lastDialErr`
    or the last line's error is returned if none connects. -/
def dialCandidates (host portText : String) (dial : Nat → Option String) :
    Nat → Option String → List IP → Dialing
  | _, lastDialErr, [] =>
    { dialed := []
      err := some (lastDialErr.getD
        ("DNS resolution for " ++ host ++ " returned no usable IP addresses")) }
  | i, _, ip :: ips =>
    let address := joinHostPort (T.ipString ip) portText
    match dial i with
    | none => { dialed := [address], err := none }
    | some err =>
      let rest := dialCandidates host portText dial (i + 1) (some err) ips
      { rest with dialed := address :: rest.dialed }

def dialOnce (dial : Nat → Option String) (address : String) : Dialing :=
  { dialed := [address], err := dial 0 }

def refuse (err : String) : Dialing := { dialed := [], err := some err }

variable (p : SSRFProtection)

/-- `DialContext` from the split address on. -/
def dialTarget (network addr host portText : String) (net : Network) : Dialing :=
  match T.atoi portText with
  | none => refuse ("invalid port: " ++ portText)
  | some port =>
    match p.validateNetworkTarget T host port with
    | some err => refuse err
    | none =>
      match T.parseIP host with
      | some ip => dialOnce net.dial (joinHostPort (T.ipString ip) portText)
      | none =>
        if !p.applyIPFilterForDomain then dialOnce net.dial addr
        else
          match net.lookupIPAddr host with
          | .error err => refuse ("DNS resolution failed for " ++ host ++ ": " ++ err)
          | .ok resolved =>
            match candidateIPs T p network host resolved with
            | .error err => refuse err
            | .ok ips => dialCandidates T host portText net.dial 0 none ips

/-- `DialContext`; `getProtection` gives an error, protection off (`none`), or on. -/
def dialContext (getProtection : Except String (Option SSRFProtection)) (network addr : String)
    (net : Network) : Dialing :=
  match getProtection with
  | .error err => refuse err
  | .ok none => dialOnce net.dial addr
  | .ok (some p) =>
    match T.splitHostPort addr with
    | .error err => refuse ("invalid dial address " ++ addr ++ ": " ++ err)
    | .ok (host, portText) => dialTarget T p network addr host portText net

/-- What `url.Parse` makes of an address: `u.Scheme`, `u.Host` and `u.Hostname()`. -/
structure ParsedURL where
  scheme : String
  host : String
  hostname : String

/-- Host and port of an URL, as `ValidateURL` takes them. -/
def targetOf (u : ParsedURL) : String × String :=
  match T.splitHostPort u.host with
  | .ok target => target
  | .error _ => (u.hostname, if u.scheme = "https" then "443" else "80")

/-- `ValidateURL` from the parsed URL on; `lookupIP` is a resolution of its own. -/
def validateURL (u : ParsedURL) (lookupIP : String → Except String (List IP)) : Option String :=
  if u.scheme ≠ "http" ∧ u.scheme ≠ "https" then
    some ("unsupported protocol: " ++ u.scheme ++ " (only http/https allowed)")
  else
    let (host, portStr) := targetOf T u
    match T.atoi portStr with
    | none => some ("invalid port: " ++ portStr)
    | some port =>
      match p.validateNetworkTarget T host port with
      | some err => some err
      | none =>
        if (T.parseIP host).isSome || !p.applyIPFilterForDomain then none
        else
          match lookupIP host with
          | .error err => some ("DNS resolution failed for " ++ host ++ ": " ++ err)
          | .ok ips => ips.findSome? (p.validateResolvedIP T host)

/-- `RoundTrip` without a proxy, where the transport dials `addr` for the URL. -/
def roundTrip (u : ParsedURL) (lookupIP : String → Except String (List IP))
    (network addr : String) (net : Network) : Dialing :=
  match validateURL T p u lookupIP with
  | some err => refuse err
  | none => dialContext T (.ok (some p)) network addr net

/-! ## What is permitted -/

def IPListed (ip : IP) (list : List String) : Prop :=
  ∃ entry ∈ list,
    (∃ network, T.parseCIDR entry = some network ∧ network.contains ip = true) ∨
      T.parseCIDR entry = none ∧ ∃ jp, T.parseIP entry = some jp ∧ ip.view = jp.view

def PermitsIP (ip : IP) : Prop :=
  if p.ipFilterMode = true then IPListed T ip p.ipList else ¬ IPListed T ip p.ipList

def PermitsPort (port : Int) : Prop :=
  1 ≤ port ∧ port ≤ 65535 ∧ (p.allowedPorts = [] ∨ port ∈ p.allowedPorts)

def dnsName (name : String) : String := trimDot (toLower T.lower name)

/-- The list has the name or, as `*.suffix`, one of its parents. -/
def NameListed (host : String) (list : List String) : Prop :=
  ∃ item ∈ list, matchesItem (dnsName T host) (dnsName T (trimSpace item)) = true

def PermitsName (host : String) : Prop :=
  if p.domainFilterMode = true then NameListed T host p.domainList
  else ¬ NameListed T host p.domainList

instance (host : String) (list : List String) : Decidable (NameListed T host list) :=
  inferInstanceAs (Decidable (∃ item ∈ list, _))

instance (p : SSRFProtection) (host : String) : Decidable (PermitsName T p host) :=
  inferInstanceAs (Decidable (if p.domainFilterMode = true then _ else _))

/-- A dialed address is the text of an address that may be reached, at a port
    that may be reached. -/
def Reached (addr dialed : String) : Prop :=
  ∃ host portText port ip, T.splitHostPort addr = .ok (host, portText) ∧
    T.atoi portText = some port ∧ dialed = joinHostPort (T.ipString ip) portText ∧
    isPrivateIP (some ip) = false ∧ PermitsIP T p ip ∧ PermitsPort p port

def Named (addr : String) : Prop :=
  ∃ host portText, T.splitHostPort addr = .ok (host, portText) ∧
    ((T.parseIP host).isSome = true ∨ PermitsName T p host)

/-- The check does not let through what a comparison of names as DNS makes it
    keeps out: an entry that forbids the name forbids what is compared for it, an
    entry that permits what is compared permits the name, and what is compared
    is no address. -/
def ComparedAlike (host : String) : Prop :=
  (T.parseIP (trimSpace host) = none →
    if p.domainFilterMode = true then
      isDomainListed T (trimSpace host) p.domainList = true → NameListed T host p.domainList
    else NameListed T host p.domainList → isDomainListed T (trimSpace host) p.domainList = true) ∧
  ∀ ip, T.parseIP (trimSpace host) = some ip → p.isIPAccessAllowed T ip = true →
    PermitsName T p host

/-- The requested host is an address, or blank, or its port is not permitted, or
    no address is, or its name is compared as DNS does. -/
def Harmless (addr : String) : Prop :=
  ∀ host portText port, T.splitHostPort addr = .ok (host, portText) →
    T.atoi portText = some port →
      (T.parseIP host).isSome = true ∨ trimSpace host = "" ∨ ¬ PermitsPort p port ∨
        (∀ ip, p.isIPAccessAllowed T ip = false) ∨ ComparedAlike T p host

/-! ## The checks -/

variable {T} {p : SSRFProtection} {ip : IP}

theorem isIpInCIDRList_iff {list : List String} :
    isIpInCIDRList T ip list = true ↔ IPListed T ip list := by
  simp only [isIpInCIDRList, IPListed, List.any_eq_true]
  refine exists_congr fun entry => and_congr_right fun _ => ?_
  cases hcidr : T.parseCIDR entry with
  | some network => simp
  | none =>
    cases hip : T.parseIP entry with
    | some jp => simp [equal_iff]
    | none => simp

theorem isIPAccessAllowed_iff (hprivate : p.allowPrivateIp = false) :
    p.isIPAccessAllowed T ip = true ↔ isPrivateIP (some ip) = false ∧ PermitsIP T p ip := by
  unfold SSRFProtection.isIPAccessAllowed PermitsIP
  rw [hprivate, Bool.not_false, Bool.and_true]
  cases hp : isPrivateIP (some ip) with
  | true => simp
  | false =>
    cases p.ipFilterMode with
    | true => simp [isIpInCIDRList_iff]
    | false =>
      simp only [Bool.false_eq_true, if_false, true_and, ← isIpInCIDRList_iff (T := T),
        Bool.not_eq_true', Bool.not_eq_true]

theorem isAllowedPort_iff {port : Int} :
    p.isAllowedPort port = true ↔ p.allowedPorts = [] ∨ port ∈ p.allowedPorts := by
  simp [SSRFProtection.isAllowedPort]

theorem validateNetworkTarget_none_iff {host : String} {port : Int} :
    p.validateNetworkTarget T host port = none ↔
      trimSpace host ≠ "" ∧ PermitsPort p port ∧
        (∀ ip, T.parseIP (trimSpace host) = some ip → p.isIPAccessAllowed T ip = true) ∧
        (T.parseIP (trimSpace host) = none → p.isDomainAllowed T (trimSpace host) = true) := by
  unfold SSRFProtection.validateNetworkTarget
  by_cases hempty : trimSpace host = ""
  · simp [hempty]
  rw [if_neg hempty]
  by_cases hrange : port < 1 ∨ 65535 < port
  · rw [if_pos hrange]
    refine iff_of_false (fun h => by cases h) fun h => ?_
    obtain ⟨-, hport, -⟩ := h
    have hlow := hport.1
    have hhigh := hport.2.1
    omega
  rw [if_neg hrange]
  by_cases hport : p.isAllowedPort port = true
  · have hpermitted : PermitsPort p port := ⟨by omega, by omega, isAllowedPort_iff.1 hport⟩
    rw [hport, Bool.not_true, if_neg Bool.false_ne_true]
    cases hip : T.parseIP (trimSpace host) with
    | some ip =>
      cases hallowed : p.isIPAccessAllowed T ip <;> simp [hallowed, hempty, hpermitted]
    | none =>
      cases hname : p.isDomainAllowed T (trimSpace host) with
      | true => simp [hempty, hpermitted]
      | false => cases p.domainFilterMode <;> simp
  rw [Bool.eq_false_iff.2 hport, Bool.not_false, if_pos rfl]
  refine iff_of_false (fun h => by cases h) fun h => ?_
  exact hport (isAllowedPort_iff.2 h.2.1.2.2)

theorem comparedAlike_iff {host : String} : ComparedAlike T p host ↔
      ((∀ ip, T.parseIP (trimSpace host) = some ip → p.isIPAccessAllowed T ip = true) →
        (T.parseIP (trimSpace host) = none → p.isDomainAllowed T (trimSpace host) = true) →
          PermitsName T p host) := by
  unfold ComparedAlike SSRFProtection.isDomainAllowed PermitsName
  cases hip : T.parseIP (trimSpace host) with
  | some ip => simp
  | none =>
    cases p.domainFilterMode with
    | true => simp
    | false =>
      cases hlisted : isDomainListed T (trimSpace host) p.domainList <;> simp

theorem validateResolvedIP_none {host : String}
    (h : p.validateResolvedIP T host ip = none) : p.isIPAccessAllowed T ip = true := by
  by_contra hdenied
  simp [SSRFProtection.validateResolvedIP, hdenied] at h

theorem candidateIPs_allowed {network host : String} {resolved : List (Option IP)} {ips : List IP}
    (h : candidateIPs T p network host resolved = .ok ips) :
    ∀ ip ∈ ips, p.isIPAccessAllowed T ip = true := by
  induction resolved generalizing ips with
  | nil =>
    obtain rfl := Except.ok.inj h
    exact fun ip hip => absurd hip not_mem_nil
  | cons answer resolved ih =>
    cases answer with
    | none => exact ih h
    | some jp =>
      unfold candidateIPs at h
      by_cases hnetwork : networkAllowsIP network jp = true
      · rw [hnetwork, Bool.not_true, if_neg Bool.false_ne_true] at h
        cases hvalid : p.validateResolvedIP T host jp with
        | some err =>
          rw [hvalid] at h
          cases h
        | none =>
          rw [hvalid] at h
          cases hrest : candidateIPs T p network host resolved with
          | error err =>
            rw [hrest] at h
            cases h
          | ok rest =>
            rw [hrest] at h
            obtain rfl := Except.ok.inj h
            intro ip hip
            rcases mem_cons.1 hip with rfl | hip
            · exact validateResolvedIP_none hvalid
            · exact ih hrest ip hip
      · rw [Bool.eq_false_iff.2 hnetwork, Bool.not_false, if_pos rfl] at h
        exact ih h

theorem mem_dialCandidates {host portText : String} {dial : Nat → Option String} {i : Nat}
    {last : Option String} {ips : List IP} {a : String}
    (h : a ∈ (dialCandidates T host portText dial i last ips).dialed) :
    ∃ ip ∈ ips, a = joinHostPort (T.ipString ip) portText := by
  induction ips generalizing i last with
  | nil => exact absurd h not_mem_nil
  | cons ip ips ih =>
    unfold dialCandidates at h
    cases hdial : dial i with
    | none =>
      rw [hdial] at h
      exact ⟨ip, List.mem_cons_self, mem_singleton.1 h⟩
    | some err =>
      rw [hdial] at h
      rcases mem_cons.1 h with rfl | h
      · exact ⟨ip, List.mem_cons_self, rfl⟩
      · obtain ⟨jp, hjp, ha⟩ := ih h
        exact ⟨jp, List.mem_cons_of_mem _ hjp, ha⟩

/-- **What is dialed for a target**: the text of an address that has passed. -/
theorem mem_dialTarget (hfilter : p.applyIPFilterForDomain = true)
    {network addr host portText a : String} {net : Network}
    (h : a ∈ (dialTarget T p network addr host portText net).dialed) :
    ∃ port ip, T.atoi portText = some port ∧ p.validateNetworkTarget T host port = none ∧
      a = joinHostPort (T.ipString ip) portText ∧ p.isIPAccessAllowed T ip = true := by
  unfold dialTarget at h
  cases hatoi : T.atoi portText with
  | none =>
    rw [hatoi] at h
    exact absurd h not_mem_nil
  | some port =>
    rw [hatoi] at h
    simp only at h
    cases hvalid : p.validateNetworkTarget T host port with
    | some err =>
      rw [hvalid] at h
      exact absurd h not_mem_nil
    | none =>
      rw [hvalid] at h
      cases hip : T.parseIP host with
      | some ip =>
        rw [hip] at h
        have htrim : trimSpace host = host := T.parseIP_trim host ip hip
        have hallowed := (validateNetworkTarget_none_iff.1 hvalid).2.2.1 ip (by rw [htrim, hip])
        exact ⟨port, ip, rfl, hvalid, mem_singleton.1 h, hallowed⟩
      | none =>
        rw [hip, hfilter] at h
        cases hlookup : net.lookupIPAddr host with
        | error err =>
          rw [hlookup] at h
          exact absurd h not_mem_nil
        | ok resolved =>
          rw [hlookup] at h
          simp only at h
          cases hcandidates : candidateIPs T p network host resolved with
          | error err =>
            rw [hcandidates] at h
            exact absurd h not_mem_nil
          | ok ips =>
            rw [hcandidates] at h
            obtain ⟨ip, hmem, ha⟩ := mem_dialCandidates h
            exact ⟨port, ip, rfl, hvalid, ha, candidateIPs_allowed hcandidates ip hmem⟩

/-- **What is dialed may be reached**, whatever the resolver answers. -/
theorem dialed_reached (hprivate : p.allowPrivateIp = false)
    (hfilter : p.applyIPFilterForDomain = true) {network addr a : String} {net : Network}
    (h : a ∈ (dialContext T (.ok (some p)) network addr net).dialed) : Reached T p addr a := by
  unfold dialContext at h
  cases hsplit : T.splitHostPort addr with
  | error err =>
    rw [hsplit] at h
    exact absurd h not_mem_nil
  | ok target =>
    obtain ⟨host, portText⟩ := target
    rw [hsplit] at h
    obtain ⟨port, ip, hatoi, hvalid, ha, hallowed⟩ := mem_dialTarget hfilter h
    obtain ⟨hpublic, hpermitted⟩ := (isIPAccessAllowed_iff hprivate).1 hallowed
    exact ⟨host, portText, port, ip, hsplit, hatoi, ha, hpublic, hpermitted,
      (validateNetworkTarget_none_iff.1 hvalid).2.1⟩

theorem dialTarget_name (addr : String) (hfilter : p.applyIPFilterForDomain = true)
    {host portText : String} {port : Int} (hatoi : T.atoi portText = some port)
    (hvalid : p.validateNetworkTarget T host port = none) (hname : T.parseIP host = none)
    (hallowed : p.isIPAccessAllowed T ip = true) : dialTarget T p "tcp" addr host portText
        { lookupIPAddr := fun _ => .ok [some ip], dial := fun _ => none } =
      { dialed := [joinHostPort (T.ipString ip) portText], err := none } := by
  have hcandidates : candidateIPs T p "tcp" host [some ip] = .ok [ip] := by
    simp only [candidateIPs, networkAllowsIP, SSRFProtection.validateResolvedIP, hallowed]
    rfl
  simp only [dialTarget, hatoi, hvalid, hname, hfilter, hcandidates, Bool.not_true,
    Bool.false_eq_true, if_false, dialCandidates]

/-- **Exactly for a harmless address is everything dialed also permitted by name.** -/
theorem dials_permitted_iff (p : SSRFProtection) (hprivate : p.allowPrivateIp = false)
    (hfilter : p.applyIPFilterForDomain = true) (addr : String) :
    (∀ network net, ∀ a ∈ (dialContext T (.ok (some p)) network addr net).dialed,
        Reached T p addr a) ∧
      ((∀ network net, ∀ a ∈ (dialContext T (.ok (some p)) network addr net).dialed,
          Reached T p addr a ∧ Named T p addr) ↔ Harmless T p addr) := by
  refine ⟨fun network net a ha => dialed_reached hprivate hfilter ha, ?_, ?_⟩
  · intro h host portText port hsplit hatoi
    by_contra hharm
    simp only [not_or, not_forall, not_not, Bool.not_eq_false, comparedAlike_iff] at hharm
    obtain ⟨hname, hblank, hport, ⟨ip, hallowed⟩, hip, hcompared, hforbidden⟩ := hharm
    have hvalid : p.validateNetworkTarget T host port = none :=
      validateNetworkTarget_none_iff.2 ⟨hblank, hport, hip, hcompared⟩
    have hdialed := dialTarget_name addr hfilter hatoi hvalid
      (Option.not_isSome_iff_eq_none.1 hname) hallowed
    have hmem : joinHostPort (T.ipString ip) portText ∈ (dialContext T (.ok (some p)) "tcp" addr
        { lookupIPAddr := fun _ => .ok [some ip], dial := fun _ => none }).dialed := by
      simp only [dialContext, hsplit, hdialed, mem_singleton]
    obtain ⟨host', portText', hsplit', hnamed⟩ := (h _ _ _ hmem).2
    obtain ⟨rfl, rfl⟩ := Prod.mk.inj (Except.ok.inj (hsplit.symm.trans hsplit'))
    exact hnamed.elim hname hforbidden
  intro h network net a ha
  refine ⟨dialed_reached hprivate hfilter ha, ?_⟩
  unfold dialContext at ha
  cases hsplit : T.splitHostPort addr with
  | error err =>
    rw [hsplit] at ha
    exact absurd ha not_mem_nil
  | ok target =>
    obtain ⟨host, portText⟩ := target
    rw [hsplit] at ha
    obtain ⟨port, ip, hatoi, hvalid, -, hallowed⟩ := mem_dialTarget hfilter ha
    refine ⟨host, portText, hsplit, ?_⟩
    obtain ⟨hblank, hport, hlisted, hcompared⟩ := validateNetworkTarget_none_iff.1 hvalid
    rcases h host portText port hsplit hatoi with hip | hempty | hbad | hnone | halike
    · exact .inl hip
    · exact absurd hempty hblank
    · exact absurd hport hbad
    · rw [hnone ip] at hallowed
      exact Bool.noConfusion hallowed
    · exact .inr (comparedAlike_iff.1 halike hlisted hcompared)

/-! ## A dot at the end -/

/-- What the texts below are read as. -/
def smallTexts : Texts where
  lower := Char.toLower
  parseIP _ := none
  parseCIDR _ := none
  ipString _ := "93.184.216.34"
  splitHostPort s :=
    if s = "evil.com.:80" then .ok ("evil.com.", "80")
    else if s = "evil.com:80" then .ok ("evil.com", "80")
    else .error "missing port in address"
  atoi s := if s = "80" then some 80 else none
  parseIP_trim s ip h := by cases h

/-- `evil.com` is on the list of forbidden names. -/
def evilForbidden : SSRFProtection where
  allowPrivateIp := false
  domainFilterMode := false
  domainList := ["evil.com"]
  ipFilterMode := false
  ipList := []
  allowedPorts := [80, 443]
  applyIPFilterForDomain := true

/-- Every name resolves to `93.184.216.34`, and every raw dial connects. -/
def smallNetwork : Network where
  lookupIPAddr _ := .ok [some (.v4 (ipv4 93 184 216 34))]
  dial _ := none

/-- `http://evil.com/` is refused and `http://evil.com./` is fetched. -/
theorem trailingDot_dialed :
    (roundTrip smallTexts evilForbidden { scheme := "http", host := "evil.com", hostname := "evil.com" }
        (fun _ => .ok [.v4 (ipv4 93 184 216 34)]) "tcp" "evil.com:80" smallNetwork).dialed = [] ∧
      (roundTrip smallTexts evilForbidden
          { scheme := "http", host := "evil.com.", hostname := "evil.com." }
          (fun _ => .ok [.v4 (ipv4 93 184 216 34)]) "tcp" "evil.com.:80" smallNetwork).dialed =
        ["93.184.216.34:80"] ∧
      ¬ Named smallTexts evilForbidden "evil.com.:80" := by
  refine ⟨by decide +kernel, by decide +kernel, ?_⟩
  rintro ⟨host, portText, hsplit, h⟩
  have hsame : smallTexts.splitHostPort "evil.com.:80" = .ok ("evil.com.", "80") := by decide +kernel
  obtain ⟨rfl, rfl⟩ := Prod.mk.inj (Except.ok.inj (hsplit.symm.trans hsame))
  rcases h with h | h
  · exact Bool.noConfusion h
  · exact absurd h (by decide +kernel)

/-- The name without the dot, which is refused. -/
theorem plainName_permitted : (∀ network net, ∀ a ∈
        (dialContext smallTexts (.ok (some evilForbidden)) network "evil.com:80" net).dialed,
        Reached smallTexts evilForbidden "evil.com:80" a) ∧
      ((∀ network net, ∀ a ∈
          (dialContext smallTexts (.ok (some evilForbidden)) network "evil.com:80" net).dialed,
          Reached smallTexts evilForbidden "evil.com:80" a ∧
            Named smallTexts evilForbidden "evil.com:80") ↔
        Harmless smallTexts evilForbidden "evil.com:80") :=
  dials_permitted_iff evilForbidden rfl rfl "evil.com:80"

end NewApi.Fetch
