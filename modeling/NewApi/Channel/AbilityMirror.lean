/-
  NewApi.Channel.AbilityMirror

  When the ability table mirrors the channels.

  The rows that `AddAbilities` and `UpdateAbilities` write for a channel are the
  pairs it lists exactly when no two of them have the same `abilitySet` key and,
  for `AddAbilities`, when a comma at an end of `Models` adds no empty model to
  what `GetModels` reads (`Tidy`).  The edits in place follow the channel as far
  as they write the same values to both tables, and the one that does not is a
  weight of zero given to a tag.
-/

import NewApi.Channel.Abilities
import Mathlib.Data.Finset.Max

namespace NewApi.Abilities

open List (foldl_cons mem_append mem_cons mem_cons_self mem_filter mem_map mem_map_of_mem
  mem_singleton)
open NewApi.Lib
open NewApi.ChannelCache (splitComma trimComma)
open NewApi.ChannelStatus (channelStatusEnabled)

/-! ## Reading the lists -/

variable {m : String}

theorem mem_splitComma {s : String} : m ∈ splitComma s ↔ m.toList ∈ s.toList.splitOn ',' := by
  unfold splitComma
  rw [mem_map]
  constructor
  · rintro ⟨cs, hcs, rfl⟩
    rwa [String.toList_ofList]
  · intro h
    exact ⟨m.toList, h, String.ofList_toList⟩

theorem splitComma_ne_nil (s : String) : splitComma s ≠ [] := by
  unfold splitComma
  simp [List.splitOn_ne_nil]

theorem mem_splitOn_dropWhile {a : Char} (l c : List Char) :
    (c ∈ (l.dropWhile (· == a)).splitOn a → c ∈ l.splitOn a) ∧
      (c ∈ l.splitOn a → c ∈ (l.dropWhile (· == a)).splitOn a ∨ c = []) := by
  induction l with
  | nil => exact ⟨id, Or.inl⟩
  | cons b l ih =>
    by_cases hb : b = a
    · subst hb
      have hsplit : (b :: l).splitOn b = [] :: l.splitOn b := by
        simpa using List.splitOn_append_cons_self (a := b) [] l
      rw [List.dropWhile_cons_of_pos (by simp), hsplit, mem_cons]
      exact ⟨fun h => Or.inr (ih.1 h), fun h => h.elim Or.inr ih.2⟩
    · rw [List.dropWhile_cons_of_neg (by simpa using hb)]
      exact ⟨id, Or.inl⟩

theorem mem_splitOn_rdropWhile {a : Char} (l c : List Char) :
    (c ∈ (l.rdropWhile (· == a)).splitOn a → c ∈ l.splitOn a) ∧
      (c ∈ l.splitOn a → c ∈ (l.rdropWhile (· == a)).splitOn a ∨ c = []) := by
  induction l using List.reverseRecOn with
  | nil => exact ⟨id, Or.inl⟩
  | append_singleton l b ih =>
    by_cases hb : b = a
    · subst hb
      have hsplit : (l ++ [b]).splitOn b = l.splitOn b ++ [[]] := by
        simpa using List.splitOn_append_cons_self (a := b) l []
      rw [List.rdropWhile_concat_pos _ _ _ (by simp), hsplit, mem_append,
        mem_singleton]
      exact ⟨fun h => Or.inl (ih.1 h), fun h => h.elim ih.2 Or.inr⟩
    · rw [List.rdropWhile_concat_neg _ _ _ (by simpa using hb)]
      exact ⟨id, Or.inl⟩

theorem toList_trimComma (s : String) :
    (trimComma s).toList = (s.toList.dropWhile (· == ',')).rdropWhile (· == ',') := by
  unfold trimComma
  rw [String.toList_ofList]
  rfl

theorem mem_splitComma_of_mem_getModels {s : String} (h : m ∈ getModels s) : m ∈ splitComma s := by
  unfold getModels at h
  split at h
  · cases h
  rw [mem_splitComma, toList_trimComma] at h
  rw [mem_splitComma]
  exact (mem_splitOn_dropWhile _ _).1 ((mem_splitOn_rdropWhile _ _).1 h)

theorem mem_getModels_or_empty {s : String} (h : m ∈ splitComma s) : m ∈ getModels s ∨ m = "" := by
  unfold getModels
  split
  · next hs =>
    subst hs
    exact Or.inr (by simpa [splitComma] using h)
  rw [mem_splitComma] at h ⊢
  rw [toList_trimComma]
  rcases (mem_splitOn_dropWhile _ _).2 h with h | h
  · rcases (mem_splitOn_rdropWhile _ _).2 h with h | h
    · exact Or.inl h
    · exact Or.inr (String.toList_eq_nil_iff.1 h)
  · exact Or.inr (String.toList_eq_nil_iff.1 h)

/-! ## The rows that are written -/

theorem collectAbilities_eq (models groups : List String) : collectAbilities models groups =
      keepFirst abilityKey (models.flatMap fun m => groups.map fun g => (g, m)) := by
  unfold collectAbilities keepFirst
  rw [List.foldl_flatMap]
  simp only [List.foldl_map]

theorem mem_pairs {models groups : List String} {g : String} :
    (g, m) ∈ (models.flatMap fun m => groups.map fun g => (g, m)) ↔ g ∈ groups ∧ m ∈ models := by
  simp only [List.mem_flatMap, mem_map, Prod.mk.injEq]
  constructor
  · rintro ⟨m', hm, g', hg, rfl, rfl⟩
    exact ⟨hg, hm⟩
  · rintro ⟨hg, hm⟩
    exact ⟨m, hm, g, hg, rfl, rfl⟩

theorem abilityKey_length (g m : String) :
    (abilityKey (g, m)).length = g.length + 1 + m.length := by
  have hbar : "|".length = 1 := by decide
  simp [abilityKey, String.length_append, hbar]

theorem mem_collectAbilities_iff {models listed groups : List String} (hgroups : groups ≠ [])
    (hsub : ∀ m ∈ listed, m ∈ models) (hextra : ∀ m ∈ models, m ∈ listed ∨ m = "") :
    (∀ g m, (g, m) ∈ collectAbilities models groups ↔ g ∈ groups ∧ m ∈ listed) ↔
      ("" ∈ models → "" ∈ listed) ∧
        ∀ g ∈ groups, ∀ g' ∈ groups, ∀ m ∈ listed, ∀ m' ∈ listed,
          abilityKey (g, m) = abilityKey (g', m') → g = g' := by
  rw [collectAbilities_eq]
  constructor
  · intro h
    constructor
    · -- no shorter key can stand for the empty model of a shortest group
      intro hempty
      obtain ⟨g, hg, hmin⟩ := Finset.exists_min_image groups.toFinset String.length
        (List.toFinset_nonempty_iff groups |>.2 hgroups)
      rw [List.mem_toFinset] at hg
      obtain ⟨⟨g', m'⟩, hkept, hkey⟩ := exists_mem_keepFirst abilityKey
        (mem_pairs.2 ⟨hg, hempty⟩)
      obtain ⟨hg', hm'⟩ := (h g' m').1 hkept
      have hle := hmin g' (List.mem_toFinset.2 hg')
      have hlen := congrArg String.length hkey
      rw [abilityKey_length, abilityKey_length, String.length_empty] at hlen
      have hm0 : m'.length = 0 := by omega
      rw [String.length_eq_zero_iff.1 hm0] at hm'
      exact hm'
    intro g hg g' hg' m hm m' hm' hkey
    have heq := eq_of_mem_keepFirst ((h g m).2 ⟨hg, hm⟩) ((h g' m').2 ⟨hg', hm'⟩) hkey
    exact congrArg Prod.fst heq
  rintro ⟨hempty, hdistinct⟩ g m
  have hlisted : ∀ m ∈ models, m ∈ listed := by
    intro m hm
    rcases hextra m hm with h | rfl
    · exact h
    · exact hempty hm
  constructor
  · intro h
    obtain ⟨hg, hm⟩ := mem_pairs.1 (mem_of_mem_keepFirst h)
    exact ⟨hg, hlisted m hm⟩
  rintro ⟨hg, hm⟩
  obtain ⟨⟨g', m'⟩, hkept, hkey⟩ := exists_mem_keepFirst abilityKey
    (mem_pairs.2 ⟨hg, hsub m hm⟩)
  obtain ⟨hg', hm'⟩ := mem_pairs.1 (mem_of_mem_keepFirst hkept)
  have hgg : g' = g := hdistinct g' hg' g hg m' (hlisted m' hm') m hm hkey
  subst hgg
  have hmm : m' = m := by
    have hchars := congrArg String.toList hkey
    simp only [abilityKey, String.toList_append, List.append_cancel_left_eq] at hchars
    exact String.toList_injective hchars
  rw [← hmm]
  exact hkept

/-- What `Create` leaves of a channel without rows. -/
def builtRows (a : Ability) (gms : List (String × String)) : Rows :=
  fun g m => if (g, m) ∈ gms then some a else none

theorem create_eq_foldl (t : Table) (id : Int) (a : Ability) (gms : List (String × String)) :
    t.create id a gms = gms.foldl (Table.createOne id a) t := by
  unfold Table.create
  rw [← List.foldl_flatten, flatten_batches]

variable {id : Int}

theorem create_frame (t : Table) {id' : Int} (a : Ability) (gms : List (String × String))
    (hid : id' ≠ id) : t.create id a gms id' = t id' := by
  rw [create_eq_foldl]
  induction gms generalizing t with
  | nil => rfl
  | cons gm gms ih =>
    rw [foldl_cons, ih]
    unfold Table.createOne
    split
    · funext g m
      simp [hid]
    · rfl

variable {t : Table}

theorem createOne_own {a : Ability} {gms : List (String × String)}
    (ht : t id = builtRows a gms) (gm : String × String) :
    Table.createOne id a t gm id = builtRows a (gms ++ [gm]) := by
  obtain ⟨g₀, m₀⟩ := gm
  unfold Table.createOne
  rw [ht]
  by_cases hmem : (g₀, m₀) ∈ gms
  · rw [if_neg (by simp [builtRows, hmem]), ht]
    funext g m
    by_cases hgm : (g, m) = (g₀, m₀)
    · simp [builtRows, hgm, hmem]
    · simp [builtRows, hgm]
  rw [if_pos (by simp [builtRows, hmem])]
  funext g m
  by_cases hgm : g = g₀ ∧ m = m₀
  · simp [builtRows, hgm]
  have hne : (g, m) ≠ (g₀, m₀) := by simpa using hgm
  rw [if_neg (fun h => hgm h.2), ht]
  simp [builtRows, hne]

theorem create_own (a : Ability) (gms : List (String × String))
    (ht : t id = fun _ _ => none) : t.create id a gms id = builtRows a gms := by
  rw [create_eq_foldl]
  induction gms using List.reverseRecOn with
  | nil =>
    rw [List.foldl_nil, ht]
    funext g m
    simp [builtRows]
  | append_singleton gms gm ih =>
    rw [List.foldl_append, foldl_cons, List.foldl_nil]
    exact createOne_own ih gm

variable (ch : Channel)

/-- The rows of `AddAbilities`. -/
def Channel.added : Rows :=
  builtRows ch.ability (collectAbilities (splitComma ch.models) (splitComma ch.group))

/-- The rows of `UpdateAbilities`. -/
def Channel.updated : Rows :=
  builtRows ch.ability (collectAbilities (getModels ch.models) (splitComma ch.group))

theorem addAbilities_ownPlace :
    OwnPlace Channel.id (fun rows : Rows => rows = fun _ _ => none) Channel.added addAbilities where
  own _ ch ht := create_own ch.ability _ ht
  frame t ch _ hid := create_frame t ch.ability _ hid

theorem replaceAbilities_frame (t : Table) {id' : Int} (a : Ability) (models group : String)
    (hid : id' ≠ id) : replaceAbilities t id a models group id' = t id' := by
  unfold replaceAbilities
  rw [create_frame _ _ _ hid]
  simp [Table.deleteChannel, hid]

theorem replaceAbilities_own (t : Table) (id : Int) (a : Ability) (models group : String) :
    replaceAbilities t id a models group id =
      builtRows a (collectAbilities (getModels models) (splitComma group)) :=
  create_own a _ (by simp [Table.deleteChannel])

theorem updateAbilities_ownPlace :
    OwnPlace Channel.id (fun _ : Rows => True) Channel.updated updateAbilities where
  own t ch _ := replaceAbilities_own t ch.id ch.ability ch.models ch.group
  frame t ch _ hid := replaceAbilities_frame t ch.ability ch.models ch.group hid

/-! ## Tidy lists -/

/-- No two pairs that the channel lists have the same `abilitySet` key. -/
def Channel.Distinct : Prop :=
  ∀ g ∈ splitComma ch.group, ∀ g' ∈ splitComma ch.group,
    ∀ m ∈ getModels ch.models, ∀ m' ∈ getModels ch.models,
      abilityKey (g, m) = abilityKey (g', m') → g = g'

/-- Moreover the models read the same with the commas at the ends and without. -/
def Channel.Tidy : Prop :=
  ("" ∈ splitComma ch.models → "" ∈ getModels ch.models) ∧ ch.Distinct

instance (ch : Channel) : Decidable ch.Distinct :=
  inferInstanceAs (Decidable (∀ g ∈ splitComma ch.group, ∀ g' ∈ splitComma ch.group,
    ∀ m ∈ getModels ch.models, ∀ m' ∈ getModels ch.models,
      abilityKey (g, m) = abilityKey (g', m') → g = g'))

instance (ch : Channel) : Decidable ch.Tidy := inferInstanceAs (Decidable (_ ∧ _))

theorem builtRows_eq_rows_iff (gms : List (String × String)) :
    builtRows ch.ability gms = ch.rows ↔ ∀ g m, (g, m) ∈ gms ↔ ch.Lists g m := by
  constructor
  · intro h g m
    have hrow : builtRows ch.ability gms g m = ch.rows g m := by rw [h]
    unfold builtRows Channel.rows at hrow
    by_cases hmem : (g, m) ∈ gms <;> by_cases hlists : ch.Lists g m <;>
      simp_all
  intro h
  funext g m
  unfold builtRows Channel.rows
  simp only [h]

theorem added_eq_rows_iff : ch.added = ch.rows ↔ ch.Tidy := by
  unfold Channel.added
  rw [builtRows_eq_rows_iff]
  exact mem_collectAbilities_iff (splitComma_ne_nil ch.group)
    (fun _ => mem_splitComma_of_mem_getModels) (fun _ => mem_getModels_or_empty)

theorem updated_eq_rows_iff : ch.updated = ch.rows ↔ ch.Distinct := by
  unfold Channel.updated
  rw [builtRows_eq_rows_iff]
  refine (mem_collectAbilities_iff (splitComma_ne_nil ch.group) (fun _ => id)
    (fun _ => Or.inl)).trans ?_
  exact and_iff_right id

theorem builtRows_eq_none_iff (a : Ability) (models group : String) :
    builtRows a (collectAbilities (getModels models) (splitComma group)) = (fun _ _ => none) ↔
      getModels models = [] := by
  constructor
  · intro h
    by_contra hmodels
    obtain ⟨m, hm⟩ := List.exists_mem_of_ne_nil _ hmodels
    obtain ⟨g, hg⟩ := List.exists_mem_of_ne_nil _ (splitComma_ne_nil group)
    obtain ⟨⟨g', m'⟩, hkept, -⟩ := exists_mem_keepFirst abilityKey (mem_pairs.2 ⟨hg, hm⟩)
    rw [← collectAbilities_eq] at hkept
    have hrow := congrFun (congrFun h g') m'
    simp [builtRows, hkept] at hrow
  intro h
  rw [h]
  funext g m
  simp [builtRows, collectAbilities]

/-! ## `FixAbility` -/

/-- One round of `FixAbility`: the rows of fifty channels removed and added. -/
def fixChunk (t : Table) (chunk : List Channel) : Table :=
  chunk.foldl addAbilities
    fun id => if id ∈ chunk.map Channel.id then fun _ _ => none else t id

theorem fixChunk_frame {chunk : List Channel}
    (hid : id ∉ chunk.map Channel.id) : fixChunk t chunk id = t id := by
  unfold fixChunk
  rw [addAbilities_ownPlace.foldl_frame]
  · rw [if_neg hid]
  · intro ch hch heq
    exact hid (heq ▸ mem_map_of_mem hch)

variable {ch : Channel}

theorem fixChunk_own {chunk : List Channel} (hnd : (chunk.map Channel.id).Nodup)
    (hch : ch ∈ chunk) : fixChunk t chunk ch.id = ch.added := by
  refine addAbilities_ownPlace.foldl_own hnd (fun c hc => ?_) ch hch
  exact if_pos (mem_map_of_mem hc)

theorem foldl_fixChunk (chunks : List (List Channel))
    (hnd : (chunks.flatten.map Channel.id).Nodup) (t : Table) :
    (∀ ch ∈ chunks.flatten, chunks.foldl fixChunk t ch.id = ch.added) ∧
      ∀ id ∉ chunks.flatten.map Channel.id, chunks.foldl fixChunk t id = t id := by
  induction chunks generalizing t with
  | nil => simp
  | cons chunk chunks ih =>
    rw [List.flatten_cons, List.map_append, List.nodup_append] at hnd
    obtain ⟨hchunk, hrest, hdisjoint⟩ := hnd
    obtain ⟨hown, hframe⟩ := ih hrest (fixChunk t chunk)
    rw [List.flatten_cons, foldl_cons]
    constructor
    · intro ch hch
      rcases mem_append.1 hch with hch | hch
      · have hid : ch.id ∉ chunks.flatten.map Channel.id := fun hmem =>
          hdisjoint ch.id (mem_map_of_mem hch) ch.id hmem rfl
        rw [hframe ch.id hid]
        exact fixChunk_own hchunk hch
      · exact hown ch hch
    intro id hid
    rw [List.map_append, mem_append, not_or] at hid
    rw [hframe id hid.2]
    exact fixChunk_frame hid.1

theorem fixAbility_own (s : Store) (hch : ch ∈ s.channels) :
    (fixAbility s).abilities ch.id = ch.added := by
  have hfix := foldl_fixChunk (batches 49 s.channels)
    (by rw [flatten_batches]; exact s.unique) fun _ _ _ => none
  rw [flatten_batches] at hfix
  exact hfix.1 ch hch

theorem fixAbility_orphans (s : Store) (hid : ¬s.Has id) :
    (fixAbility s).abilities id = fun _ _ => none := by
  have hfix := foldl_fixChunk (batches 49 s.channels)
    (by rw [flatten_batches]; exact s.unique) fun _ _ _ => none
  rw [flatten_batches] at hfix
  refine hfix.2 id fun hmem => hid ?_
  obtain ⟨ch, hch, heq⟩ := mem_map.1 hmem
  exact ⟨ch, hch, heq⟩

variable {s : Store}

theorem fixAbility_eq_self_iff (hs : Mirrors s) :
    fixAbility s = s ↔ ∀ ch ∈ s.channels, ch.Tidy := by
  constructor
  · intro h ch hch
    rw [← added_eq_rows_iff, ← hs.rows ch hch, ← fixAbility_own s hch, h]
  intro h
  have htable : (fixAbility s).abilities = s.abilities := by
    funext id
    by_cases hid : s.Has id
    · obtain ⟨ch, hch, rfl⟩ := hid
      rw [fixAbility_own s hch, hs.rows ch hch]
      exact (added_eq_rows_iff ch).2 (h ch hch)
    · rw [fixAbility_orphans s hid, hs.orphans id hid]
  cases s
  exact congrArg (Store.mk _ · _ _) htable

/-! ## One operation -/

/-- The table mirrors the channels and is the one that `FixAbility` builds. -/
structure Settled (s : Store) : Prop where
  mirrors : Mirrors s
  tidy : ∀ ch ∈ s.channels, ch.Tidy

theorem settled_iff (s : Store) : Settled s ↔ Mirrors s ∧ fixAbility s = s := by
  constructor
  · intro h
    exact ⟨h.mirrors, (fixAbility_eq_self_iff h.mirrors).2 h.tidy⟩
  · rintro ⟨hs, hfix⟩
    exact ⟨hs, (fixAbility_eq_self_iff hs).1 hfix⟩

theorem settled_mapChannels_iff {f : Channel → Channel} {hf : ∀ ch, (f ch).id = ch.id} :
    Settled (s.mapChannels f hf t) ↔
      (∀ ch ∈ s.channels, t ch.id = (f ch).rows ∧ (f ch).Tidy) ∧
        ∀ id, ¬s.Has id → t id = fun _ _ => none := by
  have hhas : ∀ id, (s.mapChannels f hf t).Has id ↔ s.Has id := by
    intro id
    constructor
    · rintro ⟨ch', hch', hid⟩
      obtain ⟨ch, hch, rfl⟩ := mem_map.1 hch'
      exact ⟨ch, hch, (hf ch).symm.trans hid⟩
    · rintro ⟨ch, hch, hid⟩
      exact ⟨f ch, mem_map_of_mem hch, (hf ch).trans hid⟩
  constructor
  · rintro ⟨⟨hrows, horphans⟩, htidy⟩
    refine ⟨fun ch hch => ?_, fun id hid => horphans id fun h => hid ((hhas id).1 h)⟩
    have hmem : f ch ∈ (s.mapChannels f hf t).channels := mem_map_of_mem hch
    have hrow := hrows (f ch) hmem
    rw [hf ch] at hrow
    exact ⟨hrow, htidy (f ch) hmem⟩
  rintro ⟨hrows, horphans⟩
  refine ⟨⟨?_, fun id hid => horphans id fun h => hid ((hhas id).2 h)⟩, ?_⟩
  · intro ch' hch'
    obtain ⟨ch, hch, rfl⟩ := mem_map.1 hch'
    rw [hf ch]
    exact (hrows ch hch).1
  intro ch' hch'
  obtain ⟨ch, hch, rfl⟩ := mem_map.1 hch'
  exact (hrows ch hch).2

theorem settled_insert_iff (hs : Settled s) (id : Int) (f : Fields) :
    Settled (insert s id f) ↔ s.Has id ∨ id = 0 ∨ (f.created id).Tidy := by
  unfold insert
  by_cases h : s.Has id ∨ id = 0
  · rw [dif_pos h]
    exact iff_of_true hs (h.imp_right Or.inl)
  rw [dif_neg h]
  rw [not_or] at h
  constructor
  · intro hsettled
    exact Or.inr (Or.inr (hsettled.tidy _ (List.mem_append_right _ mem_cons_self)))
  rintro (hhas | hid | htidy)
  · exact absurd hhas h.1
  · exact absurd hid h.2
  refine ⟨⟨?_, ?_⟩, ?_⟩
  · intro ch hch
    rcases mem_append.1 hch with hch | hch
    · have hne : ch.id ≠ (f.created id).id := fun heq => h.1 ⟨ch, hch, heq⟩
      exact (addAbilities_ownPlace.frame _ _ _ hne).trans (hs.mirrors.rows ch hch)
    · rw [mem_singleton.1 hch, ← (added_eq_rows_iff _).2 htidy]
      exact addAbilities_ownPlace.own _ _ (hs.mirrors.orphans id h.1)
  · intro id' hid'
    have hne : id' ≠ (f.created id).id := fun heq =>
      hid' ⟨f.created id, List.mem_append_right _ mem_cons_self, heq.symm⟩
    refine (addAbilities_ownPlace.frame _ _ _ hne).trans (hs.mirrors.orphans id' ?_)
    rintro ⟨ch, hch, heq⟩
    exact hid' ⟨ch, List.mem_append_left _ hch, heq⟩
  intro ch hch
  rcases mem_append.1 hch with hch | hch
  · exact hs.tidy ch hch
  · rw [mem_singleton.1 hch]
    exact htidy

theorem settled_delete (hs : Settled s) (id : Int) : Settled (delete s id) := by
  unfold delete
  split
  · exact hs
  refine ⟨⟨?_, ?_⟩, fun ch hch => hs.tidy ch (mem_filter.1 hch).1⟩
  · intro ch hch
    obtain ⟨hch, hne⟩ := mem_filter.1 hch
    have hne : ch.id ≠ id := by simpa using hne
    simp only [Table.deleteChannel, if_neg hne]
    exact hs.mirrors.rows ch hch
  intro id' hid'
  by_cases hid : id' = id
  · simp [Table.deleteChannel, hid]
  simp only [Table.deleteChannel, if_neg hid]
  refine hs.mirrors.orphans id' ?_
  rintro ⟨ch, hch, rfl⟩
  exact hid' ⟨ch, mem_filter.2 ⟨hch, by simpa using hid⟩, rfl⟩

theorem find_channel (hch : ch ∈ s.channels) :
    s.channels.find? (fun c => c.id = ch.id) = some ch := by
  have hnd := s.unique
  generalize s.channels = l at hch hnd
  induction l with
  | nil => cases hch
  | cons c l ih =>
    rw [List.map_cons, List.nodup_cons] at hnd
    rcases mem_cons.1 hch with rfl | hch
    · simp
    have hne : c.id ≠ ch.id := fun heq => hnd.1 (heq ▸ mem_map_of_mem hch)
    rw [List.find?_cons_of_neg (by simpa using hne)]
    exact ih hch hnd.2

theorem find_channel_none (h : ¬s.Has id) : s.channels.find? (fun c => c.id = id) = none := by
  rw [List.find?_eq_none]
  intro ch hch heq
  exact h ⟨ch, hch, by simpa using heq⟩

theorem settled_update_existing_iff (hs : Settled s) {row : Channel}
    (hrow : row ∈ s.channels) (f : Fields) :
    Settled (update s row.id f) ↔ (row.updates f).Tidy := by
  have hown : updateAbilities s.abilities (row.updates f) row.id = (row.updates f).updated :=
    updateAbilities_ownPlace.own s.abilities (row.updates f) trivial
  have hframe : ∀ id', id' ≠ row.id →
      updateAbilities s.abilities (row.updates f) id' = s.abilities id' := fun id' =>
    updateAbilities_ownPlace.frame s.abilities (row.updates f) id'
  unfold update
  rw [if_neg (s.nonzero row hrow), settled_mapChannels_iff, find_channel hrow]
  dsimp only
  constructor
  · rintro ⟨hrows, -⟩
    have htidy := (hrows row hrow).2
    rwa [onId, if_pos rfl] at htidy
  intro htidy
  refine ⟨?_, ?_⟩
  · intro ch hch
    unfold onId
    by_cases hid : ch.id = row.id
    · have hfind := find_channel hch
      rw [hid, find_channel hrow] at hfind
      cases hfind
      rw [if_pos rfl, hown, updated_eq_rows_iff]
      exact ⟨htidy.2, htidy⟩
    · rw [if_neg hid, hframe ch.id hid]
      exact ⟨hs.mirrors.rows ch hch, hs.tidy ch hch⟩
  intro id' hid'
  have hne : id' ≠ row.id := fun heq => hid' ⟨row, hrow, heq.symm⟩
  rw [hframe id' hne]
  exact hs.mirrors.orphans id' hid'

theorem settled_update_missing_iff (hs : Settled s) (hzero : id ≠ 0)
    (hhas : ¬s.Has id) (f : Fields) : Settled (update s id f) ↔ getModels f.models = [] := by
  unfold update
  rw [if_neg hzero, settled_mapChannels_iff, find_channel_none hhas]
  dsimp only
  constructor
  · rintro ⟨-, horphans⟩
    rw [← builtRows_eq_none_iff f.ability f.models f.group, ← replaceAbilities_own s.abilities]
    exact horphans id hhas
  intro hmodels
  refine ⟨?_, ?_⟩
  · intro ch hch
    have hid : ch.id ≠ id := fun heq => hhas ⟨ch, hch, heq⟩
    rw [onId, if_neg hid, replaceAbilities_frame _ _ _ _ hid]
    exact ⟨hs.mirrors.rows ch hch, hs.tidy ch hch⟩
  intro id' hid'
  by_cases hid : id' = id
  · subst hid
    rw [replaceAbilities_own, builtRows_eq_none_iff]
    exact hmodels
  · rw [replaceAbilities_frame _ _ _ _ hid]
    exact hs.mirrors.orphans id' hid'

/-! ## The writers that change rows in place -/

theorem rows_map_eq_iff {ch' : Channel} (hmodels : ch'.models = ch.models)
    (hgroup : ch'.group = ch.group) (f : Ability → Ability) :
    (fun g m => (ch.rows g m).map f) = ch'.rows ↔
      (getModels ch.models = [] ∨ f ch.ability = ch'.ability) := by
  have hlists : ∀ g m, ch'.Lists g m ↔ ch.Lists g m := by
    intro g m
    unfold Channel.Lists
    rw [hmodels, hgroup]
  constructor
  · intro h
    by_cases hnil : getModels ch.models = []
    · exact Or.inl hnil
    obtain ⟨m, hm⟩ := List.exists_mem_of_ne_nil _ hnil
    obtain ⟨g, hg⟩ := List.exists_mem_of_ne_nil _ (splitComma_ne_nil ch.group)
    have hrow := congrFun (congrFun h g) m
    have hlist : ch.Lists g m := ⟨hg, hm⟩
    simp only [Channel.rows, if_pos hlist, if_pos ((hlists g m).2 hlist), Option.map_some,
      Option.some.injEq] at hrow
    exact Or.inr hrow
  intro h
  funext g m
  unfold Channel.rows
  by_cases hlist : ch.Lists g m
  · have heq : f ch.ability = ch'.ability := by
      refine h.resolve_left fun hnil => ?_
      have hm := hlist.2
      rw [hnil] at hm
      cases hm
    rw [if_pos hlist, if_pos ((hlists g m).2 hlist), Option.map_some, heq]
  · rw [if_neg hlist, if_neg fun h => hlist ((hlists g m).1 h)]
    rfl

theorem updateTag_rows (hs : Settled s) (tag : String) (f : Ability → Ability)
    (hch : ch ∈ s.channels) : s.abilities.updateTag tag f ch.id =
      fun g m => (ch.rows g m).map fun a => if ch.tag = some tag then f a else a := by
  funext g m
  unfold Table.updateTag
  rw [hs.mirrors.rows ch hch]
  unfold Channel.rows
  split <;> rfl

theorem updateTag_orphans (hs : Settled s) (tag : String) (f : Ability → Ability)
    (hid : ¬s.Has id) : s.abilities.updateTag tag f id = fun _ _ => none := by
  unfold Table.updateTag
  rw [hs.mirrors.orphans id hid]
  rfl

theorem tidy_congr {ch' : Channel} (hmodels : ch'.models = ch.models)
    (hgroup : ch'.group = ch.group) : ch'.Tidy ↔ ch.Tidy := by
  unfold Channel.Tidy Channel.Distinct
  rw [hmodels, hgroup]

theorem settled_onTag_iff (hs : Settled s) {tag : String} {f : Channel → Channel}
    {hf : ∀ ch, (onTag tag f ch).id = ch.id} {g : Ability → Ability}
    (hmodels : ∀ ch, (f ch).models = ch.models) (hgroup : ∀ ch, (f ch).group = ch.group) :
    Settled (s.mapChannels (onTag tag f) hf (s.abilities.updateTag tag g)) ↔
      ∀ ch ∈ s.channels, ch.tag = some tag →
        getModels ch.models = [] ∨ g ch.ability = (f ch).ability := by
  rw [settled_mapChannels_iff]
  constructor
  · rintro ⟨hrows, -⟩ ch hch htag
    have hrow := (hrows ch hch).1
    rw [updateTag_rows hs tag g hch, onTag, if_pos htag] at hrow
    simp only [if_pos htag] at hrow
    exact (rows_map_eq_iff (hmodels ch) (hgroup ch) g).1 hrow
  intro h
  refine ⟨fun ch hch => ?_, fun id => updateTag_orphans hs tag g⟩
  rw [updateTag_rows hs tag g hch]
  unfold onTag
  by_cases htag : ch.tag = some tag
  · simp only [if_pos htag]
    exact ⟨(rows_map_eq_iff (hmodels ch) (hgroup ch) g).2 (h ch hch htag),
      (tidy_congr (hmodels ch) (hgroup ch)).2 (hs.tidy ch hch)⟩
  · simp only [if_neg htag, Option.map_id_fun', id_eq]
    exact ⟨trivial, hs.tidy ch hch⟩

theorem settled_enableChannelByTag (hs : Settled s) (tag : String) :
    Settled (enableChannelByTag s tag) := by
  refine (settled_onTag_iff hs ?_ ?_).2 ?_
  · exact fun _ => rfl
  · exact fun _ => rfl
  · exact fun _ _ _ => Or.inr rfl

theorem settled_disableChannelByTag (hs : Settled s) (tag : String) :
    Settled (disableChannelByTag s tag) := by
  refine (settled_onTag_iff hs ?_ ?_).2 ?_
  · exact fun _ => rfl
  · exact fun _ => rfl
  · exact fun _ _ _ => Or.inr rfl

/-! ### An edit by tag -/

theorem updates_tag {tag : String} (htag : ch.tag = some tag) (e : TagEdit) :
    (ch.updates (e.updateData tag)).tag = some (e.updatedTag tag) := by
  simp only [Channel.updates, TagEdit.updateData, TagEdit.updatedTag, htag]
  cases e.tagChange tag <;> rfl

theorem edited_ability_iff {tag : String} (htag : ch.tag = some tag) (e : TagEdit) :
    ({ ch.ability with
        tag := e.newTag.or ch.ability.tag
        priority := e.priority.getD ch.ability.priority
        weight := if e.weight.getD 0 = 0 then ch.ability.weight else e.weight.getD 0 } : Ability) =
        (ch.updates (e.updateData tag)).ability ↔
      (e.weight = some 0 → ch.weight = 0) := by
  have htags : e.newTag.or ch.ability.tag = (ch.updates (e.updateData tag)).ability.tag := by
    simp only [Channel.ability, Channel.updates, TagEdit.updateData, TagEdit.tagChange, htag]
    by_cases hsame : e.newTag = some tag
    · simp [hsame]
    · simp [hsame]
  rw [Ability.ext_iff]
  simp only [htags]
  simp only [Channel.ability, Channel.updates, TagEdit.updateData, if_true, true_and, and_true]
  cases hweight : e.weight with
  | none => simp
  | some w =>
    by_cases hw : w = 0
    · simp [hw]
    · simp [hw]

theorem settled_edit_in_place_iff (hs : Settled s) (tag : String) {e : TagEdit}
    (hkeep : e.shouldReCreateAbilities = false) : Settled (editChannelByTag s tag e) ↔
      ∀ ch ∈ s.channels, ch.tag = some tag →
        getModels ch.models = [] ∨ (e.weight = some 0 → ch.weight = 0) := by
  have hlists : e.models.getD "" = "" ∧ e.group.getD "" = "" := by
    simpa [TagEdit.shouldReCreateAbilities] using hkeep
  unfold editChannelByTag updateAbilityByTag
  simp only [hkeep, Bool.false_eq_true, if_false]
  rw [settled_onTag_iff hs]
  · refine forall₂_congr fun ch hch => forall_congr' fun htag => or_congr_right ?_
    exact edited_ability_iff htag e
  · intro ch
    simp [Channel.updates, TagEdit.updateData, hlists.1]
  · intro ch
    simp [Channel.updates, TagEdit.updateData, hlists.2]

theorem settled_edit_lists_iff (hs : Settled s) (tag : String) {e : TagEdit}
    (hnew : e.shouldReCreateAbilities = true) : Settled (editChannelByTag s tag e) ↔
      ∀ ch ∈ s.channels, ch.tag = some tag → (ch.updates (e.updateData tag)).Tidy := by
  have hid : ∀ ch, (onTag tag (·.updates (e.updateData tag)) ch).id = ch.id :=
    onTag_id fun _ => rfl
  have hnd : (((s.channels.map (onTag tag (·.updates (e.updateData tag)))).filter fun ch =>
      ch.tag = some (e.updatedTag tag)).map Channel.id).Nodup :=
    (s.mapChannels _ hid s.abilities).unique.sublist (List.filter_sublist.map _)
  unfold editChannelByTag
  simp only [hnew, if_true]
  rw [settled_mapChannels_iff]
  constructor
  · rintro ⟨hrows, -⟩ ch hch htag
    have htidy := (hrows ch hch).2
    rwa [onTag, if_pos htag] at htidy
  intro h
  have htidy : ∀ ch ∈ s.channels, (onTag tag (·.updates (e.updateData tag)) ch).Tidy := by
    intro ch hch
    unfold onTag
    split
    · next htag => exact h ch hch htag
    · exact hs.tidy ch hch
  refine ⟨fun ch hch => ⟨?_, htidy ch hch⟩, fun id hhas => ?_⟩
  · -- a channel with the updated tag is built again, any other is as it was
    have hmem := mem_map_of_mem (f := onTag tag (·.updates (e.updateData tag))) hch
    by_cases htag : (onTag tag (·.updates (e.updateData tag)) ch).tag = some (e.updatedTag tag)
    · have hown := updateAbilities_ownPlace.foldl_own hnd (t := s.abilities)
        (fun _ _ => trivial) _ (mem_filter.2 ⟨hmem, by simpa using htag⟩)
      rw [hid] at hown
      rw [hown, updated_eq_rows_iff]
      exact (htidy ch hch).2
    have hplain : ch.tag ≠ some tag := by
      intro hplain
      rw [onTag, if_pos hplain] at htag
      exact htag (updates_tag hplain e)
    have hsame : onTag tag (·.updates (e.updateData tag)) ch = ch := if_neg hplain
    rw [hsame] at htag ⊢
    rw [updateAbilities_ownPlace.foldl_frame]
    · exact hs.mirrors.rows ch hch
    intro c hc heq
    obtain ⟨hc, hctag⟩ := mem_filter.1 hc
    obtain ⟨c₀, hc₀, rfl⟩ := mem_map.1 hc
    rw [hid] at heq
    have hfind := find_channel hc₀
    rw [heq, find_channel hch] at hfind
    cases hfind
    rw [hsame] at hctag
    exact htag (by simpa using hctag)
  rw [updateAbilities_ownPlace.foldl_frame]
  · exact hs.mirrors.orphans id hhas
  intro c hc heq
  obtain ⟨c₀, hc₀, rfl⟩ := mem_map.1 (mem_filter.1 hc).1
  exact hhas ⟨c₀, hc₀, (hid c₀).symm.trans heq⟩

/-! ### The status flow -/

@[simp] theorem setStatus_models (ch : Channel) (usingKey : String) (status : Int) :
    (ch.setStatus usingKey status).models = ch.models := by
  unfold Channel.setStatus
  split <;> rfl

@[simp] theorem setStatus_group (ch : Channel) (usingKey : String) (status : Int) :
    (ch.setStatus usingKey status).group = ch.group := by
  unfold Channel.setStatus
  split <;> rfl

theorem setStatus_ability (ch : Channel) (usingKey : String) (status : Int) :
    (ch.setStatus usingKey status).ability = { ch.ability with
        enabled := (ch.setStatus usingKey status).status == channelStatusEnabled } := by
  unfold Channel.setStatus
  split <;> rfl

theorem setStatus_status_of_ne {usingKey : String} {status : Int}
    (h : (ch.setStatus usingKey status).status ≠ ch.status) :
    (ch.setStatus usingKey status).status = channelStatusEnabled ↔
      status = channelStatusEnabled := by
  unfold Channel.setStatus at h ⊢
  by_cases hmulti : ch.isMultiKey = true
  · rw [if_pos hmulti] at h ⊢
    rw [ChannelStatus.handlerMultiKeyUpdate_eq hmulti] at h ⊢
    exact ChannelStatus.applied_status_of_ne (fun _ => ChannelStatus.aim_key_lt) h
  · rw [if_neg hmulti]

theorem shouldUpdateAbilities_eq {usingKey : String} {status : Int} (h : ch.status ≠ status) :
    (if ch.isMultiKey then ch.status != (ch.setStatus usingKey status).status else true) =
      (ch.status != (ch.setStatus usingKey status).status) := by
  by_cases hmulti : ch.isMultiKey = true
  · rw [if_pos hmulti]
  · rw [if_neg hmulti, Channel.setStatus, if_neg hmulti]
    exact (bne_iff_ne.2 h).symm

theorem status_rows (hs : Settled s) (hch : ch ∈ s.channels) (usingKey : String) (status : Int) :
    (if ch.status != (ch.setStatus usingKey status).status then
        updateAbilityStatus s.abilities ch.id (status == channelStatusEnabled)
      else s.abilities) ch.id = (ch.setStatus usingKey status).rows := by
  by_cases hsame : (ch.setStatus usingKey status).status = ch.status
  · rw [if_neg (by simp [hsame]), hs.mirrors.rows ch hch]
    have hability : (ch.setStatus usingKey status).ability = ch.ability := by
      rw [setStatus_ability, hsame]
      rfl
    have hrows := (rows_map_eq_iff (setStatus_models ch usingKey status)
      (setStatus_group ch usingKey status) id).2 (Or.inr hability.symm)
    simpa using hrows
  rw [if_pos (bne_iff_ne.2 (Ne.symm hsame))]
  have hasked : (status == channelStatusEnabled) =
      ((ch.setStatus usingKey status).status == channelStatusEnabled) := by
    rw [Bool.eq_iff_iff, beq_iff_eq, beq_iff_eq]
    exact (setStatus_status_of_ne hsame).symm
  have hrows := (rows_map_eq_iff (setStatus_models ch usingKey status)
    (setStatus_group ch usingKey status) fun a =>
      { a with enabled := (ch.setStatus usingKey status).status == channelStatusEnabled }).2
    (Or.inr (setStatus_ability ch usingKey status).symm)
  rw [← hrows]
  funext g m
  simp only [updateAbilityStatus, Table.updateChannel, if_true, hs.mirrors.rows ch hch, hasked]

theorem settled_updateChannelStatus (hs : Settled s) (id : Int) (usingKey : String)
    (status : Int) (cached : Bool) : Settled (updateChannelStatus s id usingKey status cached) := by
  unfold updateChannelStatus
  cases cached with
  | false => exact hs
  | true =>
    rw [if_pos rfl]
    by_cases hhas : s.Has id
    · obtain ⟨ch, hch, rfl⟩ := hhas
      rw [find_channel hch]
      dsimp only
      by_cases hstatus : ch.status = status
      · rw [if_pos hstatus]
        exact hs
      rw [if_neg hstatus, shouldUpdateAbilities_eq hstatus, settled_mapChannels_iff]
      have hframe : ∀ id', id' ≠ ch.id →
          (if ch.status != (ch.setStatus usingKey status).status then
            updateAbilityStatus s.abilities ch.id (status == channelStatusEnabled)
          else s.abilities) id' = s.abilities id' := by
        intro id' hne
        split
        · funext g m
          simp [updateAbilityStatus, Table.updateChannel, hne]
        · rfl
      refine ⟨fun c hc => ?_, fun id' hid' => ?_⟩
      · unfold onId
        by_cases hid : c.id = ch.id
        · have hfind := find_channel hc
          rw [hid, find_channel hch] at hfind
          cases hfind
          rw [if_pos rfl]
          refine ⟨status_rows hs hch usingKey status, ?_⟩
          exact (tidy_congr (setStatus_models ch usingKey status)
            (setStatus_group ch usingKey status)).2 (hs.tidy ch hch)
        · rw [if_neg hid, hframe c.id hid]
          exact ⟨hs.mirrors.rows c hc, hs.tidy c hc⟩
      have hne : id' ≠ ch.id := fun heq => hid' ⟨ch, hch, heq.symm⟩
      rw [hframe id' hne]
      exact hs.mirrors.orphans id' hid'
    · rw [find_channel_none hhas]
      exact hs

/-! ## Every run -/

/-- What an operation must meet: the channels it inserts or whose columns it
    writes have tidy lists, `Update` finds its channel (or lists no model), and no
    edit in place gives the weight zero to a tag with a channel of another weight
    that has abilities. -/
def Sound (s : Store) : Op → Prop
  | .insert id f => s.Has id ∨ id = 0 ∨ (f.created id).Tidy
  | .update id f => id = 0 ∨
      (∀ ch ∈ s.channels, ch.id = id → (ch.updates f).Tidy) ∧
        (¬s.Has id → getModels f.models = [])
  | .editChannelByTag tag e => ∀ ch ∈ s.channels, ch.tag = some tag →
      (ch.updates (e.updateData tag)).Tidy ∧
        (e.shouldReCreateAbilities = false → e.weight = some 0 →
          ch.weight = 0 ∨ getModels ch.models = [])
  | _ => True

theorem settled_update_iff (hs : Settled s) (id : Int) (f : Fields) :
    Settled (update s id f) ↔ Sound s (.update id f) := by
  by_cases hzero : id = 0
  · unfold update
    rw [if_pos hzero]
    exact iff_of_true hs (Or.inl hzero)
  by_cases hhas : s.Has id
  · obtain ⟨row, hrow, rfl⟩ := hhas
    rw [settled_update_existing_iff hs hrow]
    constructor
    · intro htidy
      refine Or.inr ⟨?_, fun h => absurd ⟨row, hrow, rfl⟩ h⟩
      intro ch hch hid
      have hfind := find_channel hch
      rw [hid, find_channel hrow] at hfind
      cases hfind
      exact htidy
    rintro (h | h)
    · exact absurd h hzero
    · exact h.1 row hrow rfl
  rw [settled_update_missing_iff hs hzero hhas]
  constructor
  · intro hmodels
    exact Or.inr ⟨fun ch hch hid => absurd ⟨ch, hch, hid⟩ hhas, fun _ => hmodels⟩
  rintro (h | h)
  · exact absurd h hzero
  · exact h.2 hhas

theorem settled_edit_iff (hs : Settled s) (tag : String) (e : TagEdit) :
    Settled (editChannelByTag s tag e) ↔ Sound s (.editChannelByTag tag e) := by
  cases hnew : e.shouldReCreateAbilities with
  | true =>
    rw [settled_edit_lists_iff hs tag hnew]
    refine forall₂_congr fun ch _ => forall_congr' fun _ => ?_
    simp [hnew]
  | false =>
    have hlists : e.models.getD "" = "" ∧ e.group.getD "" = "" := by
      simpa [TagEdit.shouldReCreateAbilities] using hnew
    rw [settled_edit_in_place_iff hs tag hnew]
    refine forall₂_congr fun ch hch => forall_congr' fun _ => ?_
    have htidy : (ch.updates (e.updateData tag)).Tidy := by
      refine (tidy_congr ?_ ?_).2 (hs.tidy ch hch)
      · simp [Channel.updates, TagEdit.updateData, hlists.1]
      · simp [Channel.updates, TagEdit.updateData, hlists.2]
    tauto

theorem settled_step_iff (s : Store) (op : Op) (hs : Settled s) :
    Settled (step s op) ↔ Sound s op := by
  cases op with
  | insert id f => exact settled_insert_iff hs id f
  | update id f => exact settled_update_iff hs id f
  | delete id => exact iff_of_true (settled_delete hs id) trivial
  | updateChannelStatus id usingKey status cached =>
    exact iff_of_true (settled_updateChannelStatus hs id usingKey status cached) trivial
  | enableChannelByTag tag => exact iff_of_true (settled_enableChannelByTag hs tag) trivial
  | disableChannelByTag tag => exact iff_of_true (settled_disableChannelByTag hs tag) trivial
  | editChannelByTag tag e => exact settled_edit_iff hs tag e
  | fixAbility =>
    have hfix : fixAbility s = s := (fixAbility_eq_self_iff hs.mirrors).2 hs.tidy
    refine iff_of_true ?_ trivial
    show Settled (fixAbility s)
    rw [hfix]
    exact hs

/-- In every state of a run from a mirroring store the table mirrors the channels
    and `FixAbility` would not change it, exactly when every operation is sound. -/
theorem ability_table_mirrors (s : Store) (hs : Mirrors s) (hfix : fixAbility s = s)
    (ops : List Op) : (∀ n, Mirrors (run step s (ops.take n)) ∧
        fixAbility (run step s (ops.take n)) = run step s (ops.take n)) ↔
      Meets Sound step s ops := by
  simp only [← settled_iff]
  exact forall_take_iff_meets Settled settled_step_iff ((settled_iff s).2 ⟨hs, hfix⟩) ops

theorem mirrors_empty : Mirrors .empty := ⟨by simp [Store.empty], fun _ _ => rfl⟩

theorem fixAbility_empty : fixAbility .empty = .empty := by
  refine (fixAbility_eq_self_iff mirrors_empty).2 ?_
  intro ch hch
  cases hch

/-- A channel with the tag `pool` and weight 5. -/
def poolChannel : Op :=
  .insert 1 { models := "gpt-4", group := "default", weight := some 5, tag := some "pool" }

/-- It is inserted, disabled and enabled by its tag, renamed with a new weight,
    and given a second model. -/
def poolRun : List Op :=
  [poolChannel, .disableChannelByTag "pool", .enableChannelByTag "pool",
    .editChannelByTag "pool" { newTag := some "blue", weight := some 3 },
    .update 1 { models := "gpt-4,gpt-5" }, .fixAbility]

theorem pool_stays_mirrored : Mirrors (run step .empty (poolRun.take 6)) ∧
      fixAbility (run step .empty (poolRun.take 6)) = run step .empty (poolRun.take 6) := by
  refine (ability_table_mirrors .empty mirrors_empty fixAbility_empty poolRun).2
    ⟨?_, trivial, trivial, ?_, ?_, trivial, trivial⟩ 6
  · exact Or.inr (Or.inr (by decide +kernel))
  · intro ch hch htag
    obtain rfl := mem_singleton.1 hch
    exact ⟨by decide +kernel, fun _ h => by cases h⟩
  refine Or.inr ⟨?_, ?_⟩
  · intro ch hch _
    obtain rfl := mem_singleton.1 hch
    decide +kernel
  · intro h
    exact absurd ⟨_, mem_cons_self, rfl⟩ h

/-- The weight zero, given to the tag, reaches the channel and not its abilities. -/
theorem tag_weight_zero_lost : Mirrors .empty ∧ fixAbility .empty = .empty ∧
      ¬Mirrors (run step .empty [poolChannel, .editChannelByTag "pool" { weight := some 0 }]) := by
  refine ⟨mirrors_empty, fixAbility_empty, fun h => ?_⟩
  have hrow := congrFun (congrFun (h.rows _ mem_cons_self) "default") "gpt-4"
  exact absurd hrow (by decide +kernel)

end NewApi.Abilities
