/-
  NewApi.Convert.GeminiPartialRebuild

  The arguments of a function call put together from pieces: whatever the order of
  the leaves and however the strings are cut, the pieces of a JSON object make that
  object.  A run of updates splits into the runs below each member and each index.
-/

import NewApi.Convert.GeminiPartialPaths
import NewApi.Lib.Fallible
import Mathlib.Data.List.Nodup

namespace NewApi.GeminiSource

open List (cons_ne_nil map_cons map_map mem_cons mem_cons_of_mem mem_cons_self)
open NewApi.Lib

variable {N : Type}

/-! ## Leaves -/

/-- The value at a path. -/
def valueAt : JsonValue N → List Segment → Option (JsonValue N)
  | v, [] => some v
  | .object members, .member name :: path =>
    (JsonValue.lookup name members).bind fun v => valueAt v path
  | .array items, .index i :: path => items[i]?.bind fun v => valueAt v path
  | _, _ :: _ => none

variable (v : JsonValue N)

def isLeaf : Bool :=
  match v with
  | .object _ => false
  | .array _ => false
  | _ => true

def leafAt (path : List Segment) : Option (JsonValue N) :=
  (valueAt v path).filter isLeaf

abbrev Piece (N : Type) := List Segment × JsonValue N

/-- The values given for a leaf: the fragments of a string in their order, or the leaf itself. -/
def GivenFor (leaf : Option (JsonValue N)) (values : List (JsonValue N)) : Prop :=
  match leaf with
  | none => values = []
  | some (.string s) =>
    ∃ fragments, fragments ≠ [] ∧ values = fragments.map .string ∧ String.join fragments = s
  | some leaf => values = [leaf]

def valuesAt (path : List Segment) (pieces : List (Piece N)) : List (JsonValue N) :=
  (pieces.filter fun p => p.1 = path).map Prod.snd

/-- The pieces list each leaf once; those of different leaves may stand in any order. -/
def ListsLeaves (pieces : List (Piece N)) : Prop :=
  ∀ path, GivenFor (leafAt v path) (valuesAt path pieces)

def Full : Prop :=
  ∀ path w, valueAt v path = some w → w ≠ .object [] ∧ w ≠ .array []

/-! ## Runs of updates -/

def isText : Bool :=
  match v with
  | .string _ => true
  | _ => false

def setPiece (current : JsonValue N) (piece : Piece N) : Except SetError (JsonValue N) :=
  setGeminiPartialArgValue piece.2 (isText piece.2) current piece.1

def under (s : Segment) (pieces : List (Piece N)) : List (Piece N) :=
  pieces.filterMap fun p => match p.1 with
    | [] => none
    | head :: path => if head = s then some (path, p.2) else none

theorem under_cons_same (s : Segment) (path : List Segment) (v : JsonValue N) (pieces : List (Piece N)) :
    under s ((s :: path, v) :: pieces) = (path, v) :: under s pieces := by
  simp [under]

theorem under_cons_other {s t : Segment} (h : t ≠ s) (path : List Segment) (v : JsonValue N)
    (pieces : List (Piece N)) : under s ((t :: path, v) :: pieces) = under s pieces := by
  simp [under, h]

theorem valuesAt_under (s : Segment) (path : List Segment) (pieces : List (Piece N)) :
    valuesAt path (under s pieces) = valuesAt (s :: path) pieces := by
  induction pieces with
  | nil => rfl
  | cons p pieces ih =>
    obtain ⟨full, v⟩ := p
    cases full with
    | nil => simpa [valuesAt, under] using ih
    | cons head rest =>
      by_cases hhead : head = s
      · subst hhead
        rw [under_cons_same]
        by_cases hrest : rest = path
        · simpa [valuesAt, hrest] using ih
        · simpa [valuesAt, hrest] using ih
      · rw [under_cons_other hhead]
        simpa [valuesAt, hhead] using ih

theorem setMember_names (name : String) (value : JsonValue N) (members : List (String × JsonValue N)) :
    (setMember name value members).map Prod.fst =
      if name ∈ members.map Prod.fst then members.map Prod.fst else members.map Prod.fst ++ [name] := by
  induction members with
  | nil => rfl
  | cons m rest ih =>
    obtain ⟨n, v⟩ := m
    by_cases hname : n = name
    · simp [setMember, hname]
    have hne : name ≠ n := fun h => hname h.symm
    simp only [setMember, hname, if_false, map_cons, ih, mem_cons, hne, false_or]
    split
    · rfl
    · rfl

variable {name : String} {members : List (String × JsonValue N)}

theorem setMember_nodup {value : JsonValue N}
    (h : (members.map Prod.fst).Nodup) : ((setMember name value members).map Prod.fst).Nodup := by
  rw [setMember_names]
  split
  · exact h
  rename_i hnew
  exact List.nodup_append.mpr ⟨h, List.nodup_singleton _, fun a ha b hb hab =>
    hnew (List.mem_singleton.mp hb ▸ hab ▸ ha)⟩

theorem lookup_setMember {value : JsonValue N} (h : (members.map Prod.fst).Nodup) (other : String) :
    JsonValue.lookup other (setMember name value members) =
      if other = name then some value else JsonValue.lookup other members := by
  induction members with
  | nil =>
    by_cases hname : name = other
    · simp [setMember, JsonValue.lookup, hname]
    · simp [setMember, JsonValue.lookup, hname, Ne.symm hname]
  | cons m rest ih =>
    obtain ⟨n, v⟩ := m
    rw [map_cons, List.nodup_cons] at h
    by_cases hn : n = name
    · subst hn
      have hnone : JsonValue.lookup n rest = none := by
        rw [← Option.not_isSome_iff_eq_none, JsonValue.lookup_isSome_iff]
        exact h.1
      rw [setMember, if_pos rfl, JsonValue.lookup, JsonValue.lookup]
      by_cases hother : other = n
      · subst hother
        simp [hnone]
      · simp [hother, Ne.symm hother]
    rw [setMember, if_neg hn, JsonValue.lookup, JsonValue.lookup, ih h.2]
    by_cases hother : other = name
    · simp [hother]
    · simp [hother]

variable {current : JsonValue N}

theorem setPiece_member
    (h : objectFor current = .ok members) (name : String) (path : List Segment) (v : JsonValue N) :
    setPiece current (.member name :: path, v) =
      (setPiece ((JsonValue.lookup name members).getD .null) (path, v)).bind fun updated =>
        .ok (.object (setMember name updated members)) := by
  show (objectFor current >>= fun members => _) = _
  rw [h]
  rfl

variable {items : List (JsonValue N)} {i : Nat}

theorem setPiece_index
    (h : arrayFor i current = .ok (items ++ List.replicate (i + 1 - items.length) JsonValue.null))
    (path : List Segment) (v : JsonValue N) : setPiece current (.index i :: path, v) =
      (setPiece (items.getD i .null) (path, v)).bind fun updated =>
        .ok (.array
          ((items ++ List.replicate (i + 1 - items.length) JsonValue.null).set i updated)) := by
  have hget : (items ++ List.replicate (i + 1 - items.length) JsonValue.null).getD i JsonValue.null =
      items.getD i .null := by
    rw [List.getD_eq_getElem?_getD, List.getD_eq_getElem?_getD, List.getElem?_append]
    split
    · rfl
    rename_i hi
    rw [List.getElem?_eq_none (Nat.le_of_not_lt hi), List.getElem?_replicate]
    split <;> rfl
  show (arrayFor i current >>= fun items => _) = _
  rw [h]
  show (setGeminiPartialArgValue v (isText v) (List.getD _ i JsonValue.null) path >>=
    fun updated => _) = _
  rw [hget]
  rfl

def AllMembers (pieces : List (Piece N)) : Prop :=
  ∀ p ∈ pieces, ∃ name path, p.1 = Segment.member name :: path

variable {pieces : List (Piece N)}

theorem run_members {w : String → JsonValue N} (hheads : AllMembers pieces)
    (hcurrent : objectFor current = .ok members) (hnodup : (members.map Prod.fst).Nodup)
    (hrun : ∀ name, under (.member name) pieces ≠ [] →
      tryRun setPiece ((JsonValue.lookup name members).getD .null) (under (.member name) pieces)
        = .ok (w name)) : ∃ final finalMembers, tryRun setPiece current pieces = .ok final ∧
      (pieces ≠ [] ∨ current = .object members → final = .object finalMembers) ∧
      ∀ name, JsonValue.lookup name finalMembers =
        if under (.member name) pieces = [] then JsonValue.lookup name members else some (w name) := by
  induction pieces generalizing current members with
  | nil => exact ⟨current, members, rfl, fun h => h.resolve_left fun hne => hne rfl, fun _ => rfl⟩
  | cons p pieces ih =>
    obtain ⟨full, v⟩ := p
    obtain ⟨name, path, rfl⟩ := hheads _ mem_cons_self
    have hbelow := hrun name (by rw [under_cons_same]; exact cons_ne_nil _ _)
    rw [under_cons_same] at hbelow
    obtain ⟨updated, hset, hrest⟩ := tryRun_cons_eq_ok.mp hbelow
    have hlookup : ∀ other, JsonValue.lookup other (setMember name updated members) = _ :=
      lookup_setMember hnodup
    have hnext : objectFor (.object (setMember name updated members)) = .ok _ := rfl
    -- the pieces that follow start from the object with the member set
    obtain ⟨final, finalMembers, hfinal, hobject, hmembers⟩ := ih
      (fun p hp => hheads p (mem_cons_of_mem _ hp))
      hnext (setMember_nodup hnodup) (fun other hne => by
        rw [hlookup other]
        by_cases hother : other = name
        · rw [if_pos hother, Option.getD_some, hother]
          exact hrest
        have hne' : Segment.member name ≠ .member other := fun h => hother (Segment.member.inj h).symm
        rw [if_neg hother]
        have hothers := hrun other
        rw [under_cons_other hne'] at hothers
        exact hothers hne)
    refine ⟨final, finalMembers, ?_, fun _ => hobject (.inr rfl), fun other => ?_⟩
    · rw [tryRun, setPiece_member hcurrent, hset]
      exact hfinal
    rw [hmembers other, hlookup other]
    by_cases hother : other = name
    · subst hother
      rw [under_cons_same, if_neg (cons_ne_nil _ _), if_pos rfl]
      split
      · rename_i hnil
        rw [hnil] at hrest
        rw [Except.ok.inj hrest]
      · rfl
    · have hne : Segment.member name ≠ .member other := fun h => hother (Segment.member.inj h).symm
      rw [under_cons_other hne, if_neg hother]

def AllIndexes (pieces : List (Piece N)) : Prop :=
  ∀ p ∈ pieces, ∃ i path, p.1 = Segment.index i :: path

def needed (pieces : List (Piece N)) : Nat :=
  (pieces.map fun p => match p.1 with
    | .index i :: _ => i + 1
    | _ => 0).foldr max 0

theorem set_extended (items : List (JsonValue N)) (i : Nat) (v : JsonValue N) :
    ((items ++ List.replicate (i + 1 - items.length) JsonValue.null).set i v).length =
        max items.length (i + 1) ∧
      ∀ j, ((items ++ List.replicate (i + 1 - items.length) JsonValue.null).set i v).getD j .null =
        if j = i then v else items.getD j .null := by
  have hlength : (items ++ List.replicate (i + 1 - items.length) JsonValue.null).length =
      max items.length (i + 1) := by
    rw [List.length_append, List.length_replicate]
    omega
  refine ⟨by rw [List.length_set, hlength], fun j => ?_⟩
  rw [List.getD_eq_getElem?_getD, List.getD_eq_getElem?_getD, List.getElem?_set]
  by_cases hj : j = i
  · subst hj
    have hlt : j < (items ++ List.replicate (j + 1 - items.length) JsonValue.null).length := by
      rw [hlength]
      omega
    rw [if_pos rfl, if_pos rfl, if_pos hlt]
    rfl
  rw [if_neg (Ne.symm hj), if_neg hj, List.getElem?_append]
  split
  · rfl
  rename_i hlt
  rw [List.getElem?_eq_none (Nat.le_of_not_lt hlt), List.getElem?_replicate]
  split <;> rfl

theorem run_items {w : Nat → JsonValue N} (hheads : AllIndexes pieces)
    (hcurrent : ∀ i, arrayFor i current =
      .ok (items ++ List.replicate (i + 1 - items.length) .null))
    (hrun : ∀ i, under (.index i) pieces ≠ [] →
      tryRun setPiece (items.getD i .null) (under (.index i) pieces) = .ok (w i)) :
    ∃ final finalItems, tryRun setPiece current pieces = .ok final ∧
      (pieces ≠ [] ∨ current = .array items → final = .array finalItems) ∧
      finalItems.length = max items.length (needed pieces) ∧
      ∀ i, finalItems.getD i .null =
        if under (.index i) pieces = [] then items.getD i .null else w i := by
  induction pieces generalizing current items with
  | nil =>
    exact ⟨current, items, rfl, fun h => h.resolve_left fun hne => hne rfl, by simp [needed],
      fun _ => rfl⟩
  | cons p pieces ih =>
    obtain ⟨full, v⟩ := p
    obtain ⟨i, path, rfl⟩ := hheads _ mem_cons_self
    have hbelow := hrun i (by rw [under_cons_same]; exact cons_ne_nil _ _)
    rw [under_cons_same] at hbelow
    obtain ⟨updated, hset, hrest⟩ := tryRun_cons_eq_ok.mp hbelow
    obtain ⟨hlength, hget⟩ := set_extended items i updated
    have hnext : ∀ j, arrayFor j (.array ((items ++
        List.replicate (i + 1 - items.length) JsonValue.null).set i updated)) = .ok (_ ++ _) :=
      fun _ => rfl
    -- the pieces that follow start from the array with the element set
    obtain ⟨final, finalItems, hfinal, harray, hcount, hitems⟩ := ih
      (fun p hp => hheads p (mem_cons_of_mem _ hp))
      hnext (fun j hne => by
        rw [hget j]
        by_cases hj : j = i
        · rw [if_pos hj, hj]
          exact hrest
        have hne' : Segment.index i ≠ .index j := fun h => hj (Segment.index.inj h).symm
        rw [if_neg hj]
        have hothers := hrun j
        rw [under_cons_other hne'] at hothers
        exact hothers hne)
    refine ⟨final, finalItems, ?_, fun _ => harray (.inr rfl), ?_, fun j => ?_⟩
    · rw [tryRun, setPiece_index (hcurrent i), hset]
      exact hfinal
    · rw [hcount, hlength]
      show max (max _ _) _ = max _ (max (i + 1) (needed pieces))
      omega
    rw [hitems j, hget j]
    by_cases hj : j = i
    · subst hj
      rw [under_cons_same, if_neg (cons_ne_nil _ _), if_pos rfl]
      split
      · rename_i hnil
        rw [hnil] at hrest
        rw [Except.ok.inj hrest]
      · rfl
    · have hne : Segment.index i ≠ .index j := fun h => hj (Segment.index.inj h).symm
      rw [under_cons_other hne, if_neg hj]

/-! ## The pieces of a value make the value -/

theorem leafAt_member (members : List (String × JsonValue N)) (name : String) (path : List Segment) :
    leafAt (.object members) (.member name :: path) =
      (JsonValue.lookup name members).bind fun v => leafAt v path := by
  unfold leafAt
  rw [valueAt]
  cases JsonValue.lookup name members <;> rfl

theorem leafAt_index (items : List (JsonValue N)) (i : Nat) (path : List Segment) :
    leafAt (.array items) (.index i :: path) = items[i]?.bind fun v => leafAt v path := by
  unfold leafAt
  rw [valueAt]
  cases items[i]? <;> rfl

variable {v : JsonValue N}

theorem leafAt_of_leaf (h : isLeaf v) (path : List Segment) :
    leafAt v path = if path = [] then some v else none := by
  cases path with
  | nil => simp [leafAt, valueAt, h]
  | cons s path =>
    cases v with
    | object members => cases h
    | array items => cases h
    | null | bool b | number n | string t => simp [leafAt, valueAt]

theorem Full.member (h : Full (.object members))
     (hv : JsonValue.lookup name members = some v) : Full v :=
  fun path w hw => h (.member name :: path) w (by rw [valueAt, hv]; exact hw)

theorem Full.item (h : Full (.array items)) (hv : items[i]? = some v) : Full v :=
  fun path w hw => h (.index i :: path) w (by rw [valueAt, hv]; exact hw)

theorem sizeOf_lookup (h : JsonValue.lookup name members = some v) :
    sizeOf v < sizeOf (JsonValue.object members) := by
  have hmem := List.sizeOf_lt_of_mem (JsonValue.lookup_mem h)
  simp only [Prod.mk.sizeOf_spec] at hmem
  simp only [JsonValue.object.sizeOf_spec]
  omega

theorem sizeOf_item (h : items[i]? = some v) : sizeOf v < sizeOf (JsonValue.array items) := by
  have hmem := List.sizeOf_lt_of_mem (List.mem_of_getElem? h)
  simp only [JsonValue.array.sizeOf_spec]
  omega

theorem exists_leaf (h : Full v) : ∃ path leaf, leafAt v path = some leaf := by
  induction hsize : sizeOf v using Nat.strongRecOn generalizing v with
  | ind n ih =>
  subst hsize
  cases v with
  | object members =>
    cases members with
    | nil => exact absurd rfl (h [] _ rfl).1
    | cons m members =>
      obtain ⟨v, hv⟩ := Option.isSome_iff_exists.mp
        (JsonValue.lookup_isSome_iff.mpr (show m.1 ∈ (m :: members).map Prod.fst from
          mem_cons_self))
      obtain ⟨path, leaf, hleaf⟩ := ih _ (sizeOf_lookup hv) (h.member hv) rfl
      exact ⟨.member m.1 :: path, leaf, by rw [leafAt_member, hv]; exact hleaf⟩
  | array items =>
    cases items with
    | nil => exact absurd rfl (h [] _ rfl).2
    | cons v items =>
      have hv : (v :: items)[0]? = some v := rfl
      obtain ⟨path, leaf, hleaf⟩ := ih _ (sizeOf_item hv) (h.item hv) rfl
      exact ⟨.index 0 :: path, leaf, by rw [leafAt_index, hv]; exact hleaf⟩
  | null => exact ⟨[], .null, rfl⟩
  | bool b => exact ⟨[], .bool b, rfl⟩
  | number n => exact ⟨[], .number n, rfl⟩
  | string s => exact ⟨[], .string s, rfl⟩

theorem givenFor_none {values : List (JsonValue N)} : GivenFor none values ↔ values = [] := Iff.rfl

theorem GivenFor.ne_nil {leaf : JsonValue N} {values : List (JsonValue N)}
    (h : GivenFor (some leaf) values) : values ≠ [] := by
  cases leaf with
  | string s =>
    obtain ⟨fragments, hne, rfl, -⟩ := h
    exact fun hnil => hne (List.map_eq_nil_iff.mp hnil)
  | null | bool b | number n | array items | object members => exact h ▸ cons_ne_nil _ _

section
variable (h : ListsLeaves v pieces)
include h

theorem ListsLeaves.leaf {p : Piece N} (hp : p ∈ pieces) : ∃ leaf, leafAt v p.1 = some leaf := by
  cases hleaf : leafAt v p.1 with
  | some leaf => exact ⟨leaf, rfl⟩
  | none =>
    have hvalues := h p.1
    rw [hleaf, givenFor_none] at hvalues
    have hmem : p.2 ∈ valuesAt p.1 pieces :=
      List.mem_map_of_mem (List.mem_filter.mpr ⟨hp, decide_eq_true rfl⟩)
    rw [hvalues] at hmem
    exact absurd hmem List.not_mem_nil

theorem ListsLeaves.ne_nil (hfull : Full v) : pieces ≠ [] := by
  obtain ⟨path, leaf, hleaf⟩ := exists_leaf hfull
  have hvalues := h path
  rw [hleaf] at hvalues
  rintro rfl
  exact hvalues.ne_nil rfl

theorem ListsLeaves.under {u : JsonValue N} {s : Segment}
    (hleaf : ∀ path, leafAt v (s :: path) = leafAt u path) : ListsLeaves u (under s pieces) := by
  intro path
  rw [valuesAt_under, ← hleaf]
  exact h (s :: path)

theorem ListsLeaves.under_nil {s : Segment} (hleaf : ∀ path, leafAt v (s :: path) = none) :
    GeminiSource.under s pieces = [] := by
  refine List.eq_nil_iff_forall_not_mem.mpr fun p hp => ?_
  have hvalues := h (s :: p.1)
  rw [hleaf, givenFor_none, ← valuesAt_under] at hvalues
  have hmem : p.2 ∈ valuesAt p.1 (GeminiSource.under s pieces) :=
    List.mem_map_of_mem (List.mem_filter.mpr ⟨hp, decide_eq_true rfl⟩)
  rw [hvalues] at hmem
  exact absurd hmem List.not_mem_nil

end

theorem run_fragments (fragments : List String) (s : String) :
    tryRun setPiece (.string s) (fragments.map fun t => (([], .string t) : Piece N)) =
      .ok (.string (s ++ String.join fragments)) := by
  induction fragments generalizing s with
  | nil => simp
  | cons t fragments ih =>
    show tryRun setPiece (.string (s ++ t)) _ = _
    rw [ih, String.join_cons, String.append_assoc]

theorem run_leaf (hv : isLeaf v)
    (h : ListsLeaves v pieces) : tryRun setPiece .null pieces = .ok v := by
  have hpaths : ∀ p ∈ pieces, p.1 = [] := by
    intro p hp
    obtain ⟨leaf, hleaf⟩ := h.leaf hp
    rw [leafAt_of_leaf hv] at hleaf
    split at hleaf
    · assumption
    · cases hleaf
  have hpieces : (valuesAt [] pieces).map (fun value => (([], value) : Piece N)) = pieces := by
    unfold valuesAt
    rw [List.filter_eq_self.mpr fun p hp => decide_eq_true (hpaths p hp), map_map]
    have hsame : ∀ p ∈ pieces, ((fun value => (([], value) : Piece N)) ∘ Prod.snd) p = id p :=
      fun p hp => Prod.ext_iff.mpr ⟨(hpaths p hp).symm, rfl⟩
    rw [List.map_congr_left hsame, List.map_id]
  have hvalues := h []
  rw [leafAt_of_leaf hv, if_pos rfl] at hvalues
  rw [← hpieces]
  cases v with
  | string s =>
    obtain ⟨fragments, hne, hfragments, rfl⟩ := hvalues
    rw [hfragments, map_map]
    cases fragments with
    | nil => exact absurd rfl hne
    | cons t fragments =>
      rw [String.join_cons]
      exact run_fragments fragments t
  | null | bool b | number n =>
    rw [hvalues]
    rfl
  | object members => cases hv
  | array items => cases hv

theorem leafAt_container (h : isLeaf v = false) : leafAt v [] = none := by
  unfold leafAt
  rw [valueAt, Option.filter_some, h]
  rfl

theorem ListsLeaves.allMembers (h : ListsLeaves (.object members) pieces) : AllMembers pieces := by
  intro p hp
  obtain ⟨leaf, hleaf⟩ := h.leaf hp
  cases hpath : p.1 with
  | nil =>
    rw [hpath, leafAt_container rfl] at hleaf
    cases hleaf
  | cons s path =>
    cases s with
    | member name => exact ⟨name, path, rfl⟩
    | index i =>
      rw [hpath] at hleaf
      simp [leafAt, valueAt] at hleaf

theorem ListsLeaves.allIndexes (h : ListsLeaves (.array items) pieces) : AllIndexes pieces := by
  intro p hp
  obtain ⟨leaf, hleaf⟩ := h.leaf hp
  cases hpath : p.1 with
  | nil =>
    rw [hpath, leafAt_container rfl] at hleaf
    cases hleaf
  | cons s path =>
    cases s with
    | index i => exact ⟨i, path, rfl⟩
    | member name =>
      rw [hpath] at hleaf
      simp [leafAt, valueAt] at hleaf

theorem object_of_members
    (hcurrent : objectFor current = .ok []) (h : ListsLeaves (.object members) pieces)
    (hmake : ∀ name v, JsonValue.lookup name members = some v →
      Full v ∧ ∃ w, tryRun setPiece .null (under (.member name) pieces) = .ok w ∧ JsonValue.Same w v) :
    ∃ final finalMembers, tryRun setPiece current pieces = .ok final ∧
      (pieces ≠ [] ∨ current = .object [] → final = .object finalMembers) ∧
      JsonValue.Same (.object finalMembers) (.object members) := by
  have hbelow : ∀ name v, JsonValue.lookup name members = some v →
      ListsLeaves v (under (.member name) pieces) := fun name v hv =>
    h.under fun path => by rw [leafAt_member, hv]; rfl
  have hnone : ∀ name, JsonValue.lookup name members = none → under (.member name) pieces = [] :=
    fun name hv => h.under_nil fun path => by rw [leafAt_member, hv]; rfl
  have hvalue : ∀ name, ∃ w, under (.member name) pieces ≠ [] →
      tryRun setPiece .null (under (.member name) pieces) = .ok w ∧
        ∀ v, JsonValue.lookup name members = some v → JsonValue.Same w v := by
    intro name
    cases hv : JsonValue.lookup name members with
    | none => exact ⟨.null, fun hne => absurd (hnone name hv) hne⟩
    | some v =>
      obtain ⟨-, w, hw, hsame⟩ := hmake name v hv
      exact ⟨w, fun _ => ⟨hw, fun v' hv' => Option.some.inj hv' ▸ hsame⟩⟩
  choose w hw using hvalue
  obtain ⟨final, finalMembers, hfinal, hobject, hlookup⟩ :=
    run_members h.allMembers hcurrent List.nodup_nil fun name hne => (hw name hne).1
  have hpresent : ∀ name v, JsonValue.lookup name members = some v →
      JsonValue.lookup name finalMembers = some (w name) ∧ under (.member name) pieces ≠ [] := by
    intro name v hv
    have hne := (hbelow name v hv).ne_nil (hmake name v hv).1
    rw [hlookup name, if_neg hne]
    exact ⟨rfl, hne⟩
  refine ⟨final, finalMembers, hfinal, hobject, .object (fun name => ?_) fun name u v hu hv => ?_⟩
  · cases hv : JsonValue.lookup name members with
    | none =>
      rw [hlookup name, if_pos (hnone name hv)]
      rfl
    | some v =>
      rw [(hpresent name v hv).1]
      rfl
  obtain ⟨hfinalName, hne⟩ := hpresent name v hv
  rw [hfinalName] at hu
  cases hu
  exact (hw name hne).2 v hv

theorem needed_le_iff (h : AllIndexes pieces) (k : Nat) :
    needed pieces ≤ k ↔ ∀ i, under (.index i) pieces ≠ [] → i < k := by
  induction pieces with
  | nil => simp [needed, under]
  | cons p pieces ih =>
    obtain ⟨full, v⟩ := p
    obtain ⟨j, path, rfl⟩ := h _ mem_cons_self
    show max (j + 1) (needed pieces) ≤ k ↔ _
    rw [Nat.max_le, ih fun p hp => h p (mem_cons_of_mem _ hp)]
    constructor
    · rintro ⟨hj, hrest⟩ i hne
      by_cases hi : i = j
      · omega
      have hother : Segment.index j ≠ .index i := fun h => hi (Segment.index.inj h).symm
      rw [under_cons_other hother] at hne
      exact hrest i hne
    intro hall
    refine ⟨hall j (by rw [under_cons_same]; exact cons_ne_nil _ _), fun i hne => hall i ?_⟩
    by_cases hi : i = j
    · rw [hi, under_cons_same]
      exact cons_ne_nil _ _
    · have hother : Segment.index j ≠ .index i := fun h => hi (Segment.index.inj h).symm
      rwa [under_cons_other hother]

theorem array_of_items (h : ListsLeaves (.array items) pieces) (hne : pieces ≠ [])
    (hmake : ∀ i v, items[i]? = some v →
      Full v ∧ ∃ w, tryRun setPiece .null (under (.index i) pieces) = .ok w ∧ JsonValue.Same w v) :
    ∃ finalItems, tryRun setPiece .null pieces = .ok (.array finalItems) ∧
      JsonValue.Same (.array finalItems) (.array items) := by
  have hbelow : ∀ i v, items[i]? = some v → under (.index i) pieces ≠ [] := fun i v hv =>
    (h.under fun path => by rw [leafAt_index, hv]; rfl).ne_nil (hmake i v hv).1
  have hnone : ∀ i, items[i]? = none → under (.index i) pieces = [] :=
    fun i hv => h.under_nil fun path => by rw [leafAt_index, hv]; rfl
  have hvalue : ∀ i, ∃ w, under (.index i) pieces ≠ [] →
      tryRun setPiece .null (under (.index i) pieces) = .ok w ∧
        ∀ v, items[i]? = some v → JsonValue.Same w v := by
    intro i
    cases hv : items[i]? with
    | none => exact ⟨.null, fun hne => absurd (hnone i hv) hne⟩
    | some v =>
      obtain ⟨-, w, hw, hsame⟩ := hmake i v hv
      exact ⟨w, fun _ => ⟨hw, fun v' hv' => Option.some.inj hv' ▸ hsame⟩⟩
  choose w hw using hvalue
  have hstart : ∀ i, arrayFor i (.null : JsonValue N) =
    .ok ([] ++ List.replicate (i + 1 - ([] : List (JsonValue N)).length) .null) := fun _ => rfl
  obtain ⟨final, finalItems, hfinal, harray, hlength, hget⟩ :=
    run_items h.allIndexes hstart fun i hne => (hw i hne).1
  -- the array is as long as the last index that a piece has
  have hneeded : needed pieces = items.length := by
    refine Nat.le_antisymm ((needed_le_iff h.allIndexes _).mpr fun i hi => ?_) ?_
    · by_contra hge
      exact hi (hnone i (List.getElem?_eq_none (Nat.le_of_not_lt hge)))
    have hall := (needed_le_iff h.allIndexes _).mp (le_refl (needed pieces))
    by_contra hlt
    have hlast : needed pieces < items.length := Nat.lt_of_not_le hlt
    exact absurd (hall _ (hbelow _ _ (List.getElem?_eq_getElem hlast))) (lt_irrefl _)
  rw [harray (.inl hne)] at hfinal
  refine ⟨finalItems, hfinal, .array ?_ fun i u v hu hv => ?_⟩
  · rw [hlength, hneeded]
    exact Nat.max_eq_right (Nat.zero_le _)
  have hitem := hget i
  rw [if_neg (hbelow i v hv), List.getD_eq_getElem?_getD, hu, Option.getD_some] at hitem
  rw [hitem]
  exact (hw i (hbelow i v hv)).2 v hv

/-- **The pieces of a value make the value**, whatever their order. -/
theorem run_full (hfull : Full v)
    (h : ListsLeaves v pieces) : ∃ w, tryRun setPiece .null pieces = .ok w ∧ JsonValue.Same w v := by
  induction hsize : sizeOf v using Nat.strongRecOn generalizing v pieces with
  | ind n ih =>
  subst hsize
  cases v with
  | object members =>
    have hstart : objectFor (.null : JsonValue N) = .ok [] := rfl
    obtain ⟨final, finalMembers, hfinal, hobject, hsame⟩ := object_of_members hstart h
      fun name v hv => ⟨hfull.member hv, ih _ (sizeOf_lookup hv) (hfull.member hv)
        (h.under fun path => by rw [leafAt_member, hv]; rfl) rfl⟩
    exact ⟨_, hobject (.inl (h.ne_nil hfull)) ▸ hfinal, hsame⟩
  | array items =>
    obtain ⟨finalItems, hfinal, hsame⟩ := array_of_items h (h.ne_nil hfull)
      fun i v hv => ⟨hfull.item hv, ih _ (sizeOf_item hv) (hfull.item hv)
        (h.under fun path => by rw [leafAt_index, hv]; rfl) rfl⟩
    exact ⟨_, hfinal, hsame⟩
  | null => exact ⟨_, run_leaf rfl h, .null⟩
  | bool b => exact ⟨_, run_leaf rfl h, .bool b⟩
  | number n => exact ⟨_, run_leaf rfl h, .number n⟩
  | string s => exact ⟨_, run_leaf rfl h, .string s⟩

/-! ## A call in pieces -/

def Carries (arg : GeminiPartialArg N) (piece : Piece N) : Prop :=
  SpelledPath piece.1 arg.jsonPath ∧ geminiPartialArgValue arg = some piece.2

/-- Arguments whose leaves make them: nothing in them is empty, and no array is too long. -/
structure Buildable (members : List (String × JsonValue N)) : Prop where
  full : ∀ path w, path ≠ [] → valueAt (.object members) path = some w →
    w ≠ .object [] ∧ w ≠ .array []
  bounded : ∀ path items, valueAt (.object members) path = some (.array items) →
    items.length ≤ maxGeminiPartialArgArrayIndex + 1

/-- One call in several chunks: all but the last say that it goes on, and where they give
    an id or a name it is the same. -/
structure InChunks (id name : String) (calls : List (FunctionCall N)) : Prop where
  ends : ∃ front last, calls = front ++ [last] ∧ (∀ c ∈ front, c.willContinue = some true) ∧
    last.willContinue ≠ some true
  ids : ∀ c ∈ calls, Text.trimSpace c.id = "" ∨ Text.trimSpace c.id = id
  idGiven : ∃ c ∈ calls, Text.trimSpace c.id = id
  names : ∀ c ∈ calls, Text.trimSpace c.functionName = "" ∨ Text.trimSpace c.functionName = name
  nameGiven : ∃ c ∈ calls, Text.trimSpace c.functionName = name
  named : name ≠ ""

/-- The calls of a candidate one after the other: the call that is in progress at the end,
    and those that are complete. -/
def foldCalls : Option (GeminiPartialToolCall N) → List (FunctionCall N) →
    Except PartialError (Option (GeminiPartialToolCall N) × List (FunctionCall N))
  | current, [] => .ok (current, [])
  | current, call :: calls => do
    match ← appendPartialFunctionCall current call with
    | .inl next => foldCalls (some next) calls
    | .inr completed => do
      let (last, rest) ← foldCalls none calls
      .ok (last, completed :: rest)

theorem isText_of_value {arg : GeminiPartialArg N}
    (h : geminiPartialArgValue arg = some v) : arg.stringValue.isSome = isText v := by
  unfold geminiPartialArgValue at h
  split at h
  · rename_i hs
    cases h
    rw [hs]
    rfl
  · rename_i hs _
    cases h
    rw [hs]
    rfl
  · rename_i hs _ _
    cases h
    rw [hs]
    rfl
  rename_i hs _ _
  rw [hs]
  split at h
  · cases h
    rfl
  · cases h

theorem foldlM_appendPartialArg {args : List (GeminiPartialArg N)}
    (h : List.Forall₂ Carries args pieces) (hheads : AllMembers pieces)
    (hindexes : ∀ p ∈ pieces, IndexesAllowed p.1) {arguments : List (String × JsonValue N)}
    {final : JsonValue N} (hrun : tryRun setPiece (.object arguments) pieces = .ok final) :
    ∃ updated, final = .object updated ∧ args.foldlM appendPartialArg arguments = .ok updated := by
  induction h generalizing arguments with
  | nil => exact ⟨arguments, (Except.ok.inj hrun).symm, rfl⟩
  | @cons arg piece args pieces hcarries _ ih =>
    obtain ⟨next, hset, hrest⟩ := tryRun_cons_eq_ok.mp hrun
    obtain ⟨path, v⟩ := piece
    obtain ⟨name, rest, rfl⟩ := hheads _ mem_cons_self
    have hstart : objectFor (.object arguments) = .ok arguments := rfl
    have hmember := hset
    rw [setPiece_member hstart] at hmember
    obtain ⟨value, -, hnext⟩ := bind_eq_ok.mp hmember
    obtain rfl := Except.ok.inj hnext
    have harg : appendPartialArg arguments arg = .ok (setMember name value arguments) := by
      have hparse := parsePath_spelled hcarries.1 (cons_ne_nil _ _) (hindexes _ mem_cons_self)
      unfold appendPartialArg
      rw [hparse, hcarries.2, isText_of_value hcarries.2]
      have hvalue : setGeminiPartialArgValue v (isText v) (.object arguments)
        (.member name :: rest) = .ok (.object (setMember name value arguments)) := hset
      simp only [hvalue]
    obtain ⟨updated, hfinal, hfold⟩ := ih (fun p hp => hheads p (mem_cons_of_mem _ hp))
      (fun p hp => hindexes p (mem_cons_of_mem _ hp)) hrest
    refine ⟨updated, hfinal, ?_⟩
    rw [List.foldlM_cons, harg]
    exact hfold

theorem agreed_same {current given x : String} (hcurrent : current = "" ∨ current = x)
    (hgiven : Text.trimSpace given = "" ∨ Text.trimSpace given = x) (e : PartialError) :
    ∃ result, agreed current given e = .ok result ∧ (result = "" ∨ result = x) ∧
      (current = x ∨ Text.trimSpace given = x → result = x) := by
  unfold agreed
  by_cases hempty : Text.trimSpace given = ""
  · refine ⟨current, if_pos hempty, hcurrent, ?_⟩
    rintro (h | h)
    · exact h
    rw [hempty] at h
    rcases hcurrent with hc | hc
    · rw [hc, h]
    · exact hc
  have hx := hgiven.resolve_left hempty
  have hagree : ¬ (current ≠ "" ∧ current ≠ Text.trimSpace given) := by
    rw [hx]
    tauto
  simp only [hempty, if_false, hagree]
  exact ⟨_, rfl, .inr hx, fun _ => hx⟩

theorem appendPartialFunctionCall_eq {current : Option (GeminiPartialToolCall N)} {call : FunctionCall N}
    {id : String} {arguments : List (String × JsonValue N)}
    (hid : agreed (current.getD {}).id call.id .changedId = .ok id)
    (hname : agreed (current.getD {}).name call.functionName .changedName = .ok name)
    (harguments : call.partialArgs.foldlM appendPartialArg (current.getD {}).arguments = .ok arguments) :
    appendPartialFunctionCall current call =
      if call.willContinue = some true then .ok (.inl { id, name, arguments })
      else if name = "" then .error .withoutName
      else .ok (.inr { id, functionName := name, arguments := .object arguments }) := by
  unfold appendPartialFunctionCall
  simp only [hid, hname, harguments, bind, Except.bind]

theorem foldCalls_chunks {front : List (FunctionCall N)} {last : FunctionCall N} {id : String}
    (hname : name ≠ "") (current : Option (GeminiPartialToolCall N))
    (hcurrentId : (current.getD {}).id = "" ∨ (current.getD {}).id = id)
    (hcurrentName : (current.getD {}).name = "" ∨ (current.getD {}).name = name)
    (hfront : ∀ c ∈ front, c.willContinue = some true) (hlast : last.willContinue ≠ some true)
    (hids : ∀ c ∈ front ++ [last], Text.trimSpace c.id = "" ∨ Text.trimSpace c.id = id)
    (hnames : ∀ c ∈ front ++ [last],
      Text.trimSpace c.functionName = "" ∨ Text.trimSpace c.functionName = name)
    (hidGiven : (current.getD {}).id = id ∨ ∃ c ∈ front ++ [last], Text.trimSpace c.id = id)
    (hnameGiven : (current.getD {}).name = name ∨
      ∃ c ∈ front ++ [last], Text.trimSpace c.functionName = name)
    {arguments : List (String × JsonValue N)}
    (hrun : ((front ++ [last]).flatMap FunctionCall.partialArgs).foldlM appendPartialArg
      (current.getD {}).arguments = .ok arguments) : foldCalls current (front ++ [last]) =
      .ok (none, [{ id, functionName := name, arguments := .object arguments }]) := by
  induction front generalizing current with
  | nil =>
    obtain ⟨id', hagreedId, -, hid⟩ :=
      agreed_same hcurrentId (hids last mem_cons_self) PartialError.changedId
    obtain ⟨name', hagreedName, -, hname'⟩ :=
      agreed_same hcurrentName (hnames last mem_cons_self) PartialError.changedName
    have hidEq : id' = id := hid (by simpa using hidGiven)
    have hnameEq : name' = name := hname' (by simpa using hnameGiven)
    subst hidEq hnameEq
    have happend := appendPartialFunctionCall_eq hagreedId hagreedName (by simpa using hrun)
    rw [if_neg hlast, if_neg hname] at happend
    show (appendPartialFunctionCall current last >>= fun r => _) = _
    rw [happend]
    rfl
  | cons call front ih =>
    obtain ⟨id', hagreedId, hidOk, hid⟩ :=
      agreed_same hcurrentId (hids call mem_cons_self) PartialError.changedId
    obtain ⟨name', hagreedName, hnameOk, hname'⟩ :=
      agreed_same hcurrentName (hnames call mem_cons_self) PartialError.changedName
    rw [List.cons_append, List.flatMap_cons, List.foldlM_append] at hrun
    obtain ⟨middle, hmiddle, hrest⟩ := bind_eq_ok.mp hrun
    have happend := appendPartialFunctionCall_eq hagreedId hagreedName hmiddle
    rw [if_pos (hfront call mem_cons_self)] at happend
    -- the id and the name are there already, or still to come
    have hidLater : id' = id ∨ ∃ c ∈ front ++ [last], Text.trimSpace c.id = id := by
      rcases hidGiven with h | ⟨c, hc, h⟩
      · exact .inl (hid (.inl h))
      rcases mem_cons.mp hc with rfl | hc
      · exact .inl (hid (.inr h))
      · exact .inr ⟨c, hc, h⟩
    have hnameLater : name' = name ∨ ∃ c ∈ front ++ [last], Text.trimSpace c.functionName = name := by
      rcases hnameGiven with h | ⟨c, hc, h⟩
      · exact .inl (hname' (.inl h))
      rcases mem_cons.mp hc with rfl | hc
      · exact .inl (hname' (.inr h))
      · exact .inr ⟨c, hc, h⟩
    show (appendPartialFunctionCall current call >>= fun r => _) = _
    rw [happend]
    exact ih (some { id := id', name := name', arguments := middle }) hidOk hnameOk
      (fun c hc => hfront c (mem_cons_of_mem _ hc))
      (fun c hc => hids c (mem_cons_of_mem _ hc))
      (fun c hc => hnames c (mem_cons_of_mem _ hc)) hidLater hnameLater hrest

theorem index_of_valueAt {w : JsonValue N} {path : List Segment} (h : valueAt v path = some w)
    (hi : Segment.index i ∈ path) :
    ∃ front items, valueAt v front = some (.array items) ∧ i < items.length := by
  induction path generalizing v with
  | nil => cases hi
  | cons s path ih =>
    cases v with
    | object members =>
      cases s with
      | index j => cases h
      | member name =>
        rw [valueAt] at h
        obtain ⟨u, hu, hrest⟩ := Option.bind_eq_some_iff.mp h
        rcases mem_cons.mp hi with heq | hi
        · cases heq
        · obtain ⟨front, items, hfront, hlt⟩ := ih hrest hi
          exact ⟨.member name :: front, items, by rw [valueAt, hu]; exact hfront, hlt⟩
    | array elements =>
      cases s with
      | member name => cases h
      | index j =>
        rw [valueAt] at h
        obtain ⟨u, hu, hrest⟩ := Option.bind_eq_some_iff.mp h
        rcases mem_cons.mp hi with heq | hi
        · cases heq
          exact ⟨[], elements, rfl, (List.getElem?_eq_some_iff.mp hu).1⟩
        · obtain ⟨front, items, hfront, hlt⟩ := ih hrest hi
          exact ⟨.index j :: front, items, by rw [valueAt, hu]; exact hfront, hlt⟩
    | null | bool b | number n | string t => simp [valueAt] at h

theorem Buildable.indexes (h : Buildable members)
    {path : List Segment} {leaf : JsonValue N} (hleaf : leafAt (.object members) path = some leaf) :
    IndexesAllowed path := by
  intro i hi
  obtain ⟨hv, -⟩ := Option.filter_eq_some_iff.mp hleaf
  obtain ⟨front, items, hitems, hlt⟩ := index_of_valueAt hv hi
  have hbound := h.bounded front items hitems
  omega

/-- **Paths are read back, and arguments in pieces are put together.**  A normalized path
    is parsed to its segments; and the chunks of a call whose pieces list the leaves of an
    object make one call with that object. -/
theorem partialArgs_exact {path : List Segment} (hpath : path ≠ []) (hindexes : IndexesAllowed path)
    {members : List (String × JsonValue N)} (hbuildable : Buildable members) {pieces : List (Piece N)}
    (hpieces : ListsLeaves (.object members) pieces) {id name : String} {calls : List (FunctionCall N)}
    (hcalls : InChunks id name calls)
    (hargs : List.Forall₂ Carries (calls.flatMap FunctionCall.partialArgs) pieces) :
    parseGeminiPartialArgPath (normalizedPath path) = .ok path ∧
      ∃ arguments, foldCalls none calls =
          .ok (none, [{ id, functionName := name, arguments := .object arguments }]) ∧
        JsonValue.Same (.object arguments) (.object members) := by
  refine ⟨parsePath_spelled (normalizedPath_spelled hpath) hpath hindexes, ?_⟩
  have hstart : objectFor (.object [] : JsonValue N) = .ok [] := rfl
  have hfull : ∀ n v, JsonValue.lookup n members = some v → Full v := fun n v hv p w hw =>
    hbuildable.full (.member n :: p) w (cons_ne_nil _ _) (by rw [valueAt, hv]; exact hw)
  obtain ⟨final, finalMembers, hfinal, hobject, hsame⟩ := object_of_members hstart hpieces
    fun n v hv => ⟨hfull n v hv, run_full (hfull n v hv)
      (hpieces.under fun p => by rw [leafAt_member, hv]; rfl)⟩
  obtain ⟨updated, hupdated, hfold⟩ := foldlM_appendPartialArg hargs hpieces.allMembers
    (fun p hp => by
      obtain ⟨leaf, hleaf⟩ := hpieces.leaf hp
      exact hbuildable.indexes hleaf) hfinal
  rw [hobject (.inr rfl)] at hupdated
  cases hupdated
  obtain ⟨front, last, rfl, hfront, hlast⟩ := hcalls.ends
  exact ⟨finalMembers, foldCalls_chunks hcalls.named none (.inl rfl) (.inl rfl) hfront hlast
    hcalls.ids hcalls.names (.inr hcalls.idGiven) (.inr hcalls.nameGiven) hfold, hsame⟩

/-- One string in two pieces, with its member spelled in two ways. -/
def cityCalls : List (FunctionCall Int) :=
  [{ id := "c1"
     functionName := "weather"
     partialArgs := [{ jsonPath := "$.city", stringValue := some "Pa" }]
     willContinue := some true },
   { functionName := ""
     partialArgs := [{ jsonPath := "$['city']", stringValue := some "ris" }] }]

def cityPieces : List (Piece Int) :=
  [([.member "city"], .string "Pa"), ([.member "city"], .string "ris")]

def cityMembers : List (String × JsonValue Int) := [("city", .string "Paris")]

theorem cityMembers_value {path : List Segment} {w : JsonValue Int}
    (h : valueAt (.object cityMembers) path = some w) :
    (path = [] ∧ w = .object cityMembers) ∨ (path = [.member "city"] ∧ w = .string "Paris") := by
  cases path with
  | nil => exact .inl ⟨rfl, (Option.some.inj h).symm⟩
  | cons s path =>
    cases s with
    | index i => cases h
    | member name =>
      by_cases hname : "city" = name
      · subst hname
        cases path with
        | nil => exact .inr ⟨rfl, (Option.some.inj h).symm⟩
        | cons s path => simp [valueAt, cityMembers, JsonValue.lookup] at h
      · simp [valueAt, cityMembers, JsonValue.lookup, hname] at h

theorem cityMembers_buildable : Buildable cityMembers where
  full path w hpath h := by
    rcases cityMembers_value h with ⟨hnil, -⟩ | ⟨-, rfl⟩
    · exact absurd hnil hpath
    · exact ⟨nofun, nofun⟩
  bounded path items h := by
    rcases cityMembers_value h with ⟨-, hw⟩ | ⟨-, hw⟩
    · cases hw
    · cases hw

theorem cityPieces_lists : ListsLeaves (.object cityMembers) cityPieces := by
  intro path
  by_cases hpath : path = [.member "city"]
  · subst hpath
    exact ⟨["Pa", "ris"], by decide, rfl, by decide⟩
  have hnone : leafAt (.object cityMembers) path = none := by
    unfold leafAt
    cases hvalue : valueAt (.object cityMembers) path with
    | none => rfl
    | some w =>
      rcases cityMembers_value hvalue with ⟨-, rfl⟩ | ⟨h, -⟩
      · rfl
      · exact absurd h hpath
  rw [hnone, givenFor_none]
  simp [valuesAt, cityPieces, Ne.symm hpath]

theorem cityCalls_carry : List.Forall₂ Carries (cityCalls.flatMap FunctionCall.partialArgs) cityPieces := by
  have hdot : SpelledPath [.member "city"] "$.city" :=
    ⟨[".city".toList], .cons (@Spelled.dot "city".toList (by decide) (by decide)) .nil, by decide,
      by rintro _ ⟨⟩; decide⟩
  have hquoted : SpelledPath [.member "city"] "$['city']" :=
    ⟨["['city']".toList],
      .cons (@Spelled.quoted '\'' ("city".toList.map .plain) (.inl rfl) (by decide)) .nil, by decide,
      by rintro _ ⟨⟩; decide⟩
  exact .cons ⟨hdot, rfl⟩ (.cons ⟨hquoted, rfl⟩ .nil)

theorem cityCalls_chunks : InChunks "c1" "weather" cityCalls where
  ends := ⟨[cityCalls.head (by decide)], _, rfl, by decide, by decide⟩
  ids := by decide
  idGiven := by decide
  names := by decide
  nameGiven := by decide
  named := by decide

theorem cityCalls_complete : parseGeminiPartialArgPath (normalizedPath [.member "it's", .index 7]) =
        .ok [.member "it's", .index 7] ∧
      ∃ arguments, foldCalls none cityCalls =
          .ok (none, [{ id := "c1", functionName := "weather", arguments := .object arguments }]) ∧
        JsonValue.Same (.object arguments) (.object cityMembers) :=
  partialArgs_exact (by decide) (by
    intro i hi
    obtain rfl : i = 7 := by simpa using hi
    decide) cityMembers_buildable cityPieces_lists cityCalls_chunks cityCalls_carry

/-- The path without segments is not taken. -/
theorem not_all_paths_parsed :
    ¬ ∀ path, parseGeminiPartialArgPath (normalizedPath path) = .ok path := by
  intro h
  have hroot := h []
  revert hroot
  decide

end NewApi.GeminiSource
