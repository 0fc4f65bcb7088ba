/-
  NewApi.Plugin.RoutePaths

  The paths that plugin routes may declare (`NormalizeRoutePath`, `routePathShape` and
  `routePatternIntersectsNamespace` in `pkg/jsplugin/routing.go`), and the request paths
  that match them.

  A route matches piece by piece, so what the shape keeps, the list of pieces, is also
  what the set of matched paths determines (`pieces_eq`).
-/

import Mathlib.Data.List.DropRight
import Mathlib.Data.List.Infix

namespace NewApi.Plugin

open List (forall_mem_cons intercalate_splitOn map_cons map_map mem_cons)

abbrev Segment := List Char

/-! ### The source -/

def trimPrefix : List Char → List Char
  | '/' :: rest => rest
  | s => s

/-- `strings.Trim(s, "/")` -/
def trimSlashes (s : List Char) : List Char :=
  (s.rdropWhile (· == '/')).dropWhile (· == '/')

def segments (path : List Char) : List Segment := (trimPrefix path).splitOn '/'

def pathNamePattern : List Char → Bool
  | [] => false
  | c :: cs => (c.isAlpha || c == '_') && cs.all fun c => c.isAlphanum || c == '_'

def staticSegment (segment : Segment) : Bool :=
  segment ≠ [] && segment.all fun c => c.isAlphanum || ['.', '_', '~', '-'].contains c

section

-- the verb `%q` of `fmt`
variable (quote : List Char → String)

-- parameters are compared as texts
local instance segments_lawful : LawfulBEq (List Char) := inferInstance

/-- The loop of `NormalizeRoutePath`. -/
def checkSegments (routePath : List Char) : List Segment → List (List Char) → Except String Unit
  | [], _ => .ok ()
  | segment :: rest, seenNames =>
    let fail (text : String) : Except String Unit :=
      .error ("plugin route path " ++ quote routePath ++ text)
    -- the last segment after a trailing slash
    if segment = [] ∧ rest = [] then checkSegments routePath rest seenNames
    else if segment = ['.'] ∨ segment = ['.', '.'] then fail " must not contain dot segments"
    else match segment with
      | ':' :: name =>
        if pathNamePattern name = false then fail (" has invalid parameter " ++ quote segment)
        else if name ∈ seenNames then fail (" repeats parameter " ++ quote name)
        else checkSegments routePath rest (name :: seenNames)
      | '*' :: name =>
        if rest ≠ [] ∨ pathNamePattern name = false then
          fail " has an invalid catch-all segment"
        else if name ∈ seenNames then fail (" repeats parameter " ++ quote name)
        else checkSegments routePath rest (name :: seenNames)
      | _ =>
        if staticSegment segment = false then fail (" has invalid segment " ++ quote segment)
        else checkSegments routePath rest seenNames

def NormalizeRoutePath (routePath : List Char) : Except String (List Char) := do
  if routePath.head? ≠ some '/' then throw "plugin route path must start with /"
  if routePath = ['/'] then throw "plugin route path / is reserved"
  if routePath.any ['?', '#', '%'].contains then
    throw ("plugin route path " ++ quote routePath ++
      " must not contain a query, fragment, or percent-encoding")
  if ['/', '/'] <:+: routePath then
    throw ("plugin route path " ++ quote routePath ++ " must not contain empty segments")
  checkSegments quote routePath (segments routePath) []
  return routePath

def shapeSegment (segment : Segment) : Segment :=
  if segment.head? = some ':' then [':']
  else if segment.head? = some '*' then ['*']
  else segment

def routePathShape (routePath : List Char) : Except String (List Char) := do
  let normalized ← NormalizeRoutePath quote routePath
  return '/' :: ['/'].intercalate ((segments normalized).map shapeSegment)

end

/-- The loop of `routePatternIntersectsNamespace`. -/
def intersectsFrom : (namespaceSegments routeSegments : List Segment) → Bool
  | [], _ => true
  | _ :: _, [] => false
  | namespaceSegment :: ns, routeSegment :: rs =>
    if routeSegment.head? = some '*' then true
    else if routeSegment.head? ≠ some ':' ∧ routeSegment ≠ namespaceSegment then false
    else intersectsFrom ns rs

def routePatternIntersectsNamespace (routePath ns : List Char) : Bool :=
  intersectsFrom (segments ns) ((trimSlashes (trimPrefix routePath)).splitOn '/')

def reservedRouteNamespaces : List (List Char) :=
  ["/api", "/assets", "/setup", "/v1/tasks", "/console", "/login", "/forbidden", "/sign-in",
    "/sign-up", "/forgot-password", "/oauth", "/otp", "/register", "/reset", "/privacy-policy",
    "/user-agreement", "/about", "/pricing", "/rankings", "/user", "/401", "/403", "/404",
    "/500", "/503", "/chat2link", "/system-settings", "/channels", "/chat", "/dashboard",
    "/errors", "/keys", "/models", "/playground", "/profile", "/redemption-codes",
    "/subscriptions", "/system-info", "/task-plugins", "/usage-logs", "/users",
    "/wallet"].map String.toList

/-! ### The paths that match -/

/-- What a segment of a route stands for. -/
inductive Piece
  | static (segment : Segment)
  | param
  | rest

def piece (segment : Segment) : Piece :=
  if segment.head? = some ':' then .param
  else if segment.head? = some '*' then .rest
  else .static segment

def Fits : Piece → Segment → Prop
  | .static s, x => x = s
  | .param, x => x ≠ []
  | .rest, _ => True

def Matches : List Piece → List Segment → Prop
  | [], xs => xs = []
  | _ :: _, [] => False
  | .rest :: _, _ :: _ => True
  | p :: ps, x :: xs => Fits p x ∧ Matches ps xs

def RouteMatches (routePath path : List Char) : Prop :=
  path.head? = some '/' ∧ Matches ((segments routePath).map piece) (segments path)

/-- The request path is the namespace or extends it after a slash. -/
def InNamespace (ns path : List Char) : Prop := path = ns ∨ ns ++ ['/'] <+: path

def Wf : List Piece → Prop
  | [] => True
  | .static s :: ps => '/' ∉ s ∧ (s = [] → ps = []) ∧ Wf ps
  | .param :: ps => Wf ps
  | .rest :: ps => ps = []

def Plain (xs : List Segment) : Prop := ∀ x ∈ xs, '/' ∉ x

variable {p q : Piece} {ps qs : List Piece} {r x : Segment} {xs segs rs ns : List Segment}

theorem not_matches_nil : ¬ Matches (p :: ps) [] := by
  cases p <;> exact id

theorem exists_matches (h : Wf ps) : ∃ xs, Plain xs ∧ Matches ps xs := by
  induction ps with
  | nil => exact ⟨[], nofun, rfl⟩
  | cons p ps ih =>
    cases p with
    | rest => exact ⟨[[]], by simp [Plain], trivial⟩
    | param =>
      obtain ⟨xs, hxs, hmatches⟩ := ih h
      exact ⟨['x'] :: xs, forall_mem_cons.2 ⟨by decide, hxs⟩, nofun, hmatches⟩
    | static s =>
      obtain ⟨xs, hxs, hmatches⟩ := ih h.2.2
      exact ⟨s :: xs, forall_mem_cons.2 ⟨h.1, hxs⟩, rfl, hmatches⟩

theorem exists_matches_cons (h : Wf (p :: ps)) (hfits : Fits p x) :
    ∃ xs, Plain xs ∧ Matches (p :: ps) (x :: xs) := by
  cases p with
  | rest => exact ⟨[], nofun, trivial⟩
  | param =>
    obtain ⟨xs, hxs, hmatches⟩ := @exists_matches ps h
    exact ⟨xs, hxs, hfits, hmatches⟩
  | static s =>
    obtain ⟨xs, hxs, hmatches⟩ := exists_matches h.2.2
    exact ⟨xs, hxs, hfits, hmatches⟩

/-! ### Equal sets of paths -/

theorem fits_of_matches_imp (hp : Wf (p :: ps)) (hx : '/' ∉ x)
    (h : ∀ xs, Plain xs → Matches (p :: ps) xs → Matches (q :: qs) xs) (hfits : Fits p x) :
    Fits q x := by
  obtain ⟨xs, hxs, hmatches⟩ := exists_matches_cons hp hfits
  have hq := h _ (forall_mem_cons.2 ⟨hx, hxs⟩) hmatches
  cases q with
  | rest => trivial
  | static s | param => exact hq.1

/-- A static piece takes one segment, a parameter more, and the rest the empty one too. -/
theorem piece_eq_of_fits (hp : Wf (p :: ps)) (hq : Wf (q :: qs))
    (h : ∀ x, '/' ∉ x → (Fits p x ↔ Fits q x)) : p = q := by
  have hmore : ∀ {s : Segment}, '/' ∉ s → '/' ∉ 'x' :: s ∧ 'x' :: s ≠ s := fun hs =>
    ⟨by simpa using hs, by simp⟩
  cases p with
  | static s =>
    obtain ⟨hplain, hne⟩ := hmore hp.1
    cases q with
    | static t => exact congrArg _ ((h s hp.1).1 rfl)
    | param => exact absurd ((h _ hplain).2 nofun) hne
    | rest => exact absurd ((h _ hplain).2 trivial) hne
  | param =>
    cases q with
    | static t =>
      obtain ⟨hplain, hne⟩ := hmore hq.1
      exact absurd ((h _ hplain).1 nofun) hne
    | param => rfl
    | rest => exact absurd rfl ((h [] nofun).2 trivial)
  | rest =>
    cases q with
    | static t =>
      obtain ⟨hplain, hne⟩ := hmore hq.1
      exact absurd ((h _ hplain).1 trivial) hne
    | param => exact absurd rfl ((h [] nofun).1 trivial)
    | rest => rfl

/-- **The paths that match determine the pieces.** -/
theorem pieces_eq (hps : Wf ps) (hqs : Wf qs)
    (h : ∀ xs, Plain xs → (Matches ps xs ↔ Matches qs xs)) : ps = qs := by
  induction ps generalizing qs with
  | nil =>
    cases qs with
    | nil => rfl
    | cons q qs => exact absurd ((h [] nofun).1 rfl) not_matches_nil
  | cons p ps ih =>
    cases qs with
    | nil => exact absurd ((h [] nofun).2 rfl) not_matches_nil
    | cons q qs =>
      have hpq : p = q := piece_eq_of_fits hps hqs fun x hx =>
        ⟨fits_of_matches_imp hps hx fun xs hxs => (h xs hxs).1,
          fits_of_matches_imp hqs hx fun xs hxs => (h xs hxs).2⟩
      subst hpq
      cases p with
      | rest =>
        have hp : ps = [] := hps
        have hq : qs = [] := hqs
        rw [hp, hq]
      | param =>
        refine congrArg _ (ih hps hqs fun xs hxs => ?_)
        have hx := h (['x'] :: xs) (forall_mem_cons.2 ⟨by decide, hxs⟩)
        exact ⟨fun hm => (hx.1 ⟨nofun, hm⟩).2, fun hm => (hx.2 ⟨nofun, hm⟩).2⟩
      | static s =>
        refine congrArg _ (ih hps.2.2 hqs.2.2 fun xs hxs => ?_)
        have hx := h (s :: xs) (forall_mem_cons.2 ⟨hps.1, hxs⟩)
        exact ⟨fun hm => (hx.1 ⟨rfl, hm⟩).2, fun hm => (hx.2 ⟨rfl, hm⟩).2⟩

/-! ### Reserved namespaces -/

theorem matches_cons_piece : Matches ((r :: segs).map piece) (x :: xs) ↔
      r.head? = some '*' ∨
        (r.head? = some ':' ∧ x ≠ [] ∨ r.head? ≠ some ':' ∧ x = r) ∧
          Matches (segs.map piece) xs := by
  rw [map_cons, piece]
  by_cases hparam : r.head? = some ':'
  · simp [hparam, Matches, Fits]
  · by_cases hrest : r.head? = some '*'
    · simp [hrest, Matches]
    · simp [hparam, hrest, Matches, Fits]

theorem Wf.tail (h : Wf ((r :: segs).map piece)) (hrest : r.head? ≠ some '*') :
    Wf (segs.map piece) := by
  rw [map_cons, piece] at h
  by_cases hparam : r.head? = some ':'
  · rw [if_pos hparam] at h
    exact h
  · rw [if_neg hparam, if_neg hrest] at h
    exact h.2.2

/-- The loop finds out whether a match begins with the segments of the namespace. -/
theorem intersectsFrom_iff (hns : ∀ n ∈ ns, n ≠ [] ∧ '/' ∉ n) (hwf : Wf (segs.map piece))
    (hrs : segs = rs ∨ segs = rs ++ [[]]) : intersectsFrom ns rs = true ↔
      ∃ xs, Plain xs ∧ Matches (segs.map piece) xs ∧ ns <+: xs := by
  induction ns generalizing rs segs with
  | nil =>
    obtain ⟨xs, hxs, hmatches⟩ := exists_matches hwf
    exact iff_of_true rfl ⟨xs, hxs, hmatches, List.nil_prefix⟩
  | cons n ns ih =>
    obtain ⟨⟨hn, hplain⟩, hns⟩ := forall_mem_cons.1 hns
    cases rs with
    | nil =>
      refine iff_of_false nofun ?_
      rintro ⟨xs, -, hmatches, more, rfl⟩
      rcases hrs with rfl | rfl
      · cases hmatches
      · rcases (matches_cons_piece.1 hmatches).resolve_left nofun with
          ⟨⟨hparam, -⟩ | ⟨-, hx⟩, -⟩
        · cases hparam
        · exact hn hx
    | cons r rs =>
      obtain ⟨segs, rfl, htail⟩ :
          ∃ tail, segs = r :: tail ∧ (tail = rs ∨ tail = rs ++ [[]]) :=
        hrs.elim (fun h => ⟨rs, h, .inl rfl⟩) fun h => ⟨rs ++ [[]], h.trans rfl, .inr rfl⟩
      rw [intersectsFrom]
      by_cases hrest : r.head? = some '*'
      · refine iff_of_true (if_pos hrest) ⟨n :: ns, ?_, ?_, List.prefix_rfl⟩
        · exact forall_mem_cons.2 ⟨hplain, fun x hx => (hns x hx).2⟩
        · exact matches_cons_piece.2 (.inl hrest)
      rw [if_neg hrest]
      by_cases hother : r.head? ≠ some ':' ∧ r ≠ n
      · refine iff_of_false (by simp [hother]) ?_
        rintro ⟨xs, -, hmatches, more, rfl⟩
        rcases (matches_cons_piece.1 hmatches).resolve_left hrest with
          ⟨⟨hparam, -⟩ | ⟨-, hx⟩, -⟩
        · exact hother.1 hparam
        · exact hother.2 hx.symm
      rw [if_neg hother, ih hns (hwf.tail hrest) htail]
      constructor
      · rintro ⟨xs, hxs, hmatches, hprefix⟩
        refine ⟨n :: xs, forall_mem_cons.2 ⟨hplain, hxs⟩, ?_,
          List.cons_prefix_cons.2 ⟨rfl, hprefix⟩⟩
        refine matches_cons_piece.2 (.inr ⟨?_, hmatches⟩)
        by_cases hparam : r.head? = some ':'
        · exact .inl ⟨hparam, hn⟩
        · exact .inr ⟨hparam, by_contra fun hne => hother ⟨hparam, Ne.symm hne⟩⟩
      · rintro ⟨xs, hxs, hmatches, more, rfl⟩
        refine ⟨ns ++ more, (forall_mem_cons.1 hxs).2, ?_, List.prefix_append _ _⟩
        exact ((matches_cons_piece.1 hmatches).resolve_left hrest).2

/-! ### Accepted routes -/

variable {quote : List Char → String} {routePath routePath' path s t : List Char}

theorem not_mem_of_mem_splitOn (h : x ∈ s.splitOn '/') : '/' ∉ x := by
  induction s generalizing x with
  | nil =>
    rw [List.splitOn_nil, List.mem_singleton] at h
    rw [h]
    exact List.not_mem_nil
  | cons c s ih =>
    rw [List.splitOn_cons_eq_if_modifyHead] at h
    split at h
    · rcases mem_cons.1 h with rfl | h
      · exact List.not_mem_nil
      · exact ih h
    · rename_i hc
      cases hs : s.splitOn '/' with
      | nil => exact absurd hs (List.splitOn_ne_nil _ _)
      | cons y ys =>
        rw [hs] at h
        rcases mem_cons.1 h with rfl | h
        · refine fun hmem => (mem_cons.1 hmem).elim (fun heq => hc (by simp [← heq])) ?_
          exact ih (hs ▸ List.mem_cons_self)
        · exact ih (hs ▸ List.mem_cons_of_mem _ h)

theorem plain_segments : Plain (segments path) := fun _ => not_mem_of_mem_splitOn

theorem prefix_splitOn_iff : s = t ∨ t ++ ['/'] <+: s ↔ t.splitOn '/' <+: s.splitOn '/' := by
  constructor
  · rintro (rfl | ⟨more, rfl⟩)
    · exact List.prefix_rfl
    · rw [List.append_assoc, List.singleton_append, List.splitOn_append_cons_self]
      exact List.prefix_append _ _
  · rintro ⟨more, hmore⟩
    have hs : s = ['/'].intercalate (t.splitOn '/' ++ more) := by
      rw [hmore, intercalate_splitOn]
    by_cases hnil : more = []
    · left
      rw [hs, hnil, List.append_nil, intercalate_splitOn]
    · right
      refine ⟨['/'].intercalate more, ?_⟩
      have hplain : ∀ x ∈ more, '/' ∉ x := fun x hx =>
        not_mem_of_mem_splitOn (hmore ▸ List.mem_append_right _ hx)
      have hjoin : t.splitOn '/' ++ more = (t ++ '/' :: ['/'].intercalate more).splitOn '/' := by
        rw [List.splitOn_append_cons_self, List.splitOn_intercalate '/' hplain hnil]
      rw [hs, hjoin, intercalate_splitOn, List.append_assoc, List.singleton_append]

theorem inNamespace_iff {n : List Char} (h : path.head? = some '/') :
    InNamespace ('/' :: n) path ↔ segments ('/' :: n) <+: segments path := by
  obtain ⟨rest, rfl⟩ : ∃ rest, path = '/' :: rest := by
    cases path with
    | nil => cases h
    | cons c rest => exact ⟨rest, by simpa using h⟩
  rw [segments, segments, trimPrefix, trimPrefix, ← prefix_splitOn_iff, InNamespace,
    List.cons_append, List.cons_prefix_cons, List.cons.injEq]
  simp

/-- A list of segments is the list of a path. -/
theorem exists_path (hxs : Plain xs) (hne : xs ≠ []) :
    ∃ path, path.head? = some '/' ∧ segments path = xs :=
  ⟨'/' :: ['/'].intercalate xs, rfl, List.splitOn_intercalate '/' hxs hne⟩

theorem wf_of_check {seenNames : List (List Char)} (hsegs : Plain segs)
    (h : checkSegments quote path segs seenNames = .ok ()) : Wf (segs.map piece) := by
  induction segs generalizing seenNames with
  | nil => trivial
  | cons segment rest ih =>
    obtain ⟨hplain, hrest⟩ := forall_mem_cons.1 hsegs
    simp only [checkSegments] at h
    split at h
    · rename_i hempty
      obtain ⟨rfl, rfl⟩ := hempty
      simp [piece, Wf]
    split at h
    · cases h
    split at h
    · -- a parameter
      split at h
      · cases h
      split at h
      · cases h
      exact ih hrest h
    · -- a catch-all is the last
      split at h
      · cases h
      · rename_i hlast
        push Not at hlast
        rw [hlast.1]
        rfl
    · rename_i hparam hcatch
      split at h
      · cases h
      rename_i hstatic
      have hhead : ∀ c, segment.head? = some c → ∃ name, segment = c :: name := fun c hc => by
        cases segment with
        | nil => cases hc
        | cons d name => exact ⟨name, by rw [Option.some.inj hc]⟩
      have hpiece : piece segment = .static segment := by
        rw [piece, if_neg fun hc => (hhead _ hc).elim hparam, if_neg fun hc =>
          (hhead _ hc).elim hcatch]
      rw [map_cons, hpiece]
      refine ⟨hplain, ?_, ih hrest h⟩
      rintro rfl
      exact absurd rfl hstatic

theorem trimSlashes_of_segments (h : ∀ x ∈ s.splitOn '/', x ≠ []) : trimSlashes s = s := by
  have hlast : s.rdropWhile (· == '/') = s := by
    rcases List.eq_nil_or_concat s with rfl | ⟨t, c, rfl⟩
    · rfl
    rw [List.concat_eq_append] at h ⊢
    refine List.rdropWhile_concat_neg _ _ _ fun hc => ?_
    rw [beq_iff_eq.1 hc, List.splitOn_append_cons_self] at h
    exact h [] (by simp) rfl
  rw [trimSlashes, hlast]
  cases s with
  | nil => rfl
  | cons c t =>
    refine List.dropWhile_cons_of_neg fun hc => ?_
    rw [beq_iff_eq.1 hc] at h
    exact h [] (by simp [List.splitOn_cons_eq_if_modifyHead]) rfl

/-- Only the last segment of an accepted route may be empty. -/
theorem Wf.ne_nil (h : Wf ((segs ++ [x]).map piece)) : ∀ s ∈ segs, s ≠ [] := by
  induction segs with
  | nil => nofun
  | cons r segs ih =>
    by_cases hrest : r.head? = some '*'
    · rw [List.cons_append, map_cons, piece, hrest] at h
      have hnil : (segs ++ [x]).map piece = [] := h
      simp at hnil
    refine forall_mem_cons.2 ⟨?_, ih (h.tail hrest)⟩
    rintro rfl
    have hnil : (segs ++ [x]).map piece = [] := h.2.1 rfl
    simp at hnil

theorem NormalizeRoutePath_ok (h : NormalizeRoutePath quote routePath = .ok routePath) :
    ∃ body, routePath = '/' :: body ∧ body ≠ [] ∧ Wf ((segments routePath).map piece) := by
  unfold NormalizeRoutePath at h
  simp only [bind, Except.bind, pure, Except.pure, throw, throwThe, MonadExceptOf.throw] at h
  split at h
  · cases h
  rename_i hslash
  split at h
  · cases h
  rename_i hroot
  split at h
  · cases h
  split at h
  · cases h
  split at h
  · cases h
  rename_i hcheck
  cases routePath with
  | nil => exact absurd (by decide) hslash
  | cons c body =>
    have hc : c = '/' := by simpa using hslash
    subst hc
    refine ⟨body, rfl, ?_, wf_of_check plain_segments hcheck⟩
    rintro rfl
    exact hroot rfl

/-- What the test sees of an accepted route: its segments, without the empty one after a
    trailing slash. -/
theorem trimmed_segments (h : NormalizeRoutePath quote routePath = .ok routePath) :
    ∃ rs, (trimSlashes (trimPrefix routePath)).splitOn '/' = rs ∧
      (segments routePath = rs ∨ segments routePath = rs ++ [[]]) := by
  obtain ⟨body, rfl, hbody, hwf⟩ := NormalizeRoutePath_ok h
  rw [segments, trimPrefix] at hwf ⊢
  refine ⟨_, rfl, ?_⟩
  rcases List.eq_nil_or_concat (body.splitOn '/') with hnil | ⟨init, last, hconcat⟩
  · exact absurd hnil (List.splitOn_ne_nil _ _)
  rw [List.concat_eq_append] at hconcat
  rw [hconcat] at hwf
  by_cases hlast : last = []
  · right
    have hplain : ∀ x ∈ init, '/' ∉ x := fun x hx =>
      not_mem_of_mem_splitOn (hconcat ▸ List.mem_append_left _ hx)
    have hinit : init ≠ [] := by
      rintro rfl
      have hjoin := @intercalate_splitOn _ body _ _ '/'
      rw [hconcat, hlast] at hjoin
      exact hbody hjoin.symm
    have hsplit := List.splitOn_intercalate '/' hplain hinit
    have hslash : body = ['/'].intercalate init ++ ['/'] := by
      rw [← @intercalate_splitOn _ body _ _ '/', hconcat, hlast,
        ← @intercalate_splitOn _ (_ ++ ['/']) _ _ '/', List.splitOn_append_cons_self, hsplit,
        List.splitOn_nil]
    have htrim : trimSlashes body = ['/'].intercalate init := by
      rw [hslash, trimSlashes, List.rdropWhile_concat_pos _ _ _ (by rfl)]
      exact trimSlashes_of_segments (hsplit.symm ▸ hwf.ne_nil)
    rw [htrim, hsplit, hconcat, hlast]
  · left
    rw [trimSlashes_of_segments]
    rw [hconcat]
    intro x hx
    rcases List.mem_append.1 hx with hx | hx
    · exact hwf.ne_nil x hx
    · rwa [List.mem_singleton.1 hx]

/-! ### Shapes -/

/-- The pieces of a shape are those of its route. -/
theorem piece_shapeSegment : piece (shapeSegment x) = piece x := by
  unfold shapeSegment
  split
  · rename_i hparam
    simp [piece, hparam]
  · split
    · rename_i hcatch
      simp [piece, hcatch]
    · rfl

def Piece.shape : Piece → Segment
  | .static s => s
  | .param => [':']
  | .rest => ['*']

theorem shape_piece : (piece x).shape = shapeSegment x := by
  unfold piece shapeSegment
  split
  · rfl
  · split <;> rfl

theorem shapes_eq_iff :
    xs.map shapeSegment = segs.map shapeSegment ↔ xs.map piece = segs.map piece := by
  constructor
  · intro h
    have hpieces := congrArg (List.map piece) h
    simpa only [map_map, Function.comp_def, piece_shapeSegment] using hpieces
  · intro h
    have hshapes := congrArg (List.map Piece.shape) h
    simpa only [map_map, Function.comp_def, shape_piece] using hshapes

theorem splitOn_shapes : (['/'].intercalate ((segments path).map shapeSegment)).splitOn '/' =
    (segments path).map shapeSegment := by
  refine List.splitOn_intercalate '/' (fun x hx => ?_) (by simp [segments])
  obtain ⟨y, hy, rfl⟩ := List.mem_map.1 hx
  unfold shapeSegment
  split
  · decide
  · split
    · decide
    · exact plain_segments y hy

theorem routePathShape_eq_iff (h : NormalizeRoutePath quote routePath = .ok routePath)
    (h' : NormalizeRoutePath quote routePath' = .ok routePath') :
    routePathShape quote routePath = routePathShape quote routePath' ↔
      (segments routePath).map piece = (segments routePath').map piece := by
  have hshape : ∀ {p}, NormalizeRoutePath quote p = .ok p → routePathShape quote p =
      .ok ('/' :: ['/'].intercalate ((segments p).map shapeSegment)) := fun hp => by
    rw [routePathShape, hp]
    rfl
  rw [hshape h, hshape h', ← shapes_eq_iff]
  constructor
  · intro heq
    injection heq with heq
    injection heq with _ heq
    rw [← splitOn_shapes, heq, splitOn_shapes]
  · intro heq
    rw [heq]

/-- A reserved namespace is a slash and non-empty segments. -/
theorem reserved_segments (hns : s ∈ reservedRouteNamespaces) :
    (∃ n, s = '/' :: n) ∧ ∀ n ∈ segments s, n ≠ [] := by
  have hall : ∀ s ∈ reservedRouteNamespaces,
      s.head? = some '/' ∧ ∀ n ∈ segments s, n ≠ [] := by decide +kernel
  refine ⟨?_, (hall s hns).2⟩
  cases s with
  | nil => cases (hall _ hns).1
  | cons c n => exact ⟨n, by rw [Option.some.inj (hall _ hns).1]⟩

/-- **Routes and the request paths.** An accepted route meets a reserved namespace exactly
    when a path that matches it lies there, and two routes have one shape exactly when the
    same paths match them. -/
theorem routes_exact (h : NormalizeRoutePath quote routePath = .ok routePath)
    (h' : NormalizeRoutePath quote routePath' = .ok routePath') :
    (∀ ns ∈ reservedRouteNamespaces, routePatternIntersectsNamespace routePath ns = true ↔
      ∃ path, RouteMatches routePath path ∧ InNamespace ns path) ∧
    (routePathShape quote routePath = routePathShape quote routePath' ↔
      ∀ path, RouteMatches routePath path ↔ RouteMatches routePath' path) := by
  obtain ⟨-, -, -, hwf⟩ := NormalizeRoutePath_ok h
  obtain ⟨-, -, -, hwf'⟩ := NormalizeRoutePath_ok h'
  constructor
  · intro ns hns
    obtain ⟨⟨n, rfl⟩, hne⟩ := reserved_segments hns
    obtain ⟨rs, htrim, hrs⟩ := trimmed_segments h
    rw [routePatternIntersectsNamespace, htrim,
      intersectsFrom_iff (fun n hn => ⟨hne n hn, plain_segments n hn⟩) hwf hrs]
    constructor
    · rintro ⟨xs, hxs, hmatches, hprefix⟩
      have hxne : xs ≠ [] := fun hnil =>
        absurd (List.prefix_nil.1 (hnil ▸ hprefix)) (List.splitOn_ne_nil _ _)
      obtain ⟨path, hslash, hpath⟩ := exists_path hxs hxne
      rw [← hpath] at hmatches hprefix
      exact ⟨path, ⟨hslash, hmatches⟩, (inNamespace_iff hslash).2 hprefix⟩
    · rintro ⟨path, ⟨hslash, hmatches⟩, hin⟩
      exact ⟨segments path, plain_segments, hmatches, (inNamespace_iff hslash).1 hin⟩
  · rw [routePathShape_eq_iff h h']
    constructor
    · intro heq path
      rw [RouteMatches, RouteMatches, heq]
    · intro hsame
      refine pieces_eq hwf hwf' fun xs hxs => ?_
      by_cases hnil : xs = []
      · have hno : ∀ p, ¬ Matches ((segments p).map piece) [] := fun p => by
          cases hp : (segments p).map piece with
          | nil => simp [segments] at hp
          | cons q qs => exact not_matches_nil
        rw [hnil]
        exact iff_of_false (hno _) (hno _)
      · obtain ⟨path, hslash, rfl⟩ := exists_path hxs hnil
        have hpath := hsame path
        rwa [RouteMatches, RouteMatches, and_iff_right hslash, and_iff_right hslash] at hpath

theorem routes_exact_task :
    (routePatternIntersectsNamespace "/v1/:kind".toList "/v1/tasks".toList = true ↔
      ∃ path, RouteMatches "/v1/:kind".toList path ∧ InNamespace "/v1/tasks".toList path) ∧
    (routePathShape String.ofList "/v1/:kind".toList =
        routePathShape String.ofList "/v1/:name".toList ↔
      ∀ path, RouteMatches "/v1/:kind".toList path ↔ RouteMatches "/v1/:name".toList path) :=
  (routes_exact (by decide +kernel) (by decide +kernel)).imp (fun h => h _ (by decide +kernel)) id

end NewApi.Plugin
