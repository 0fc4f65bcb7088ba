/-
  NewApi.Relay.GateSafety

  What holds of the concurrency gate in every state of every run.

  Three invariants, each kept by every event: the queue is the waiters not yet
  granted, in the order in which they came (`Queued`); the active count is
  covered by slots held or granted, whatever the settings do (`Covered`); and
  while the settings stay fixed it is exactly their number, within the limit,
  and nobody waits beside a free slot (`Exact`).  A slot granted to a waiter
  that leaves goes to the next one or back, which is where all three meet.
-/

import NewApi.Relay.ConcurrencyGate

namespace NewApi.ConcurrencyGate

open NewApi.Lib

/-! ## Counting slots -/

def Phase.slot (ph : Phase) : Nat := if ph = .holding ∨ ph.pending = true then 1 else 0

def World.slots (w : World) : Nat := w.reqs.total Phase.slot

theorem slots_eq (w : World) : w.slots = w.holders + w.pending := by
  unfold World.slots World.holders World.pending AList.total
  induction w.reqs.entries with
  | nil => rfl
  | cons e es ih =>
    have hslot : Phase.slot e.2 =
        (if e.2 = .holding then 1 else 0) + if e.2.pending then 1 else 0 := by
      cases e.2 with
      | waiting granted | leaving granted => cases granted <;> rfl
      | _ => rfl
    simp only [List.map_cons, List.sum_cons, ih, hslot]
    omega

variable {w : World} {id : Nat} {ph : Phase}

theorem slots_set (h : w.reqs.lookup id = some ph)
    (ph' : Phase) : (w.set id ph').slots + ph.slot = w.slots + ph'.slot := by
  have herase := AList.total_erase_add (f := Phase.slot) h
  have hset : (w.set id ph').slots = ph'.slot + (w.reqs.erase id).total Phase.slot :=
    AList.total_insert _ _ _ _
  unfold World.slots at *
  omega

theorem slots_remove (h : w.reqs.lookup id = some ph) :
    (w.remove id).slots + ph.slot = w.slots :=
  AList.total_erase_add h

theorem slots_set_new (h : w.reqs.lookup id = none) (ph : Phase) :
    (w.set id ph).slots = ph.slot + w.slots :=
  (AList.total_insert _ _ _ _).trans (congrArg _ (AList.total_erase_of_none h _))

theorem set_lookup (w : World) (id : Nat) (ph : Phase) (id' : Nat) :
    (w.set id ph).reqs.lookup id' = if id' = id then some ph else w.reqs.lookup id' := by
  by_cases h : id' = id
  · rw [if_pos h, h]
    exact AList.lookup_insert _
  · rw [if_neg h]
    exact AList.lookup_insert_ne h

theorem remove_lookup (w : World) (id id' : Nat) :
    (w.remove id).reqs.lookup id' = if id' = id then none else w.reqs.lookup id' := by
  by_cases h : id' = id
  · rw [if_pos h, h]
    exact AList.lookup_erase _ _
  · rw [if_neg h]
    exact AList.lookup_erase_ne h

/-! ## The queue -/

/-- The queue holds the waiters not yet granted, and the waiters granted and those
    still queued are in the order in which they came. -/
structure Queued (w : World) : Prop where
  waiting : w.gate.waiting = w.gate.fifo.length
  queued : ∀ id, id ∈ w.gate.fifo ↔ ∃ ph, w.reqs.lookup id = some ph ∧ ph.queued = true
  order : (w.granted ++ w.gate.fifo).Sublist w.enqueued
  once : w.enqueued.Nodup
  past : ∀ id ∈ w.enqueued, ∀ ph, w.reqs.lookup id = some ph → ph.early = false
  known : ∀ id ph, w.reqs.lookup id = some ph → id < w.next
  came : ∀ id ∈ w.enqueued, id < w.next

/-- What `Queued` reads apart from the phases. -/
structure SameQueue (w w' : World) : Prop where
  waiting : w'.gate.waiting = w.gate.waiting
  fifo : w'.gate.fifo = w.gate.fifo
  enqueued : w'.enqueued = w.enqueued
  granted : w'.granted = w.granted
  next : w'.next = w.next

variable {w' : World}

theorem Queued.change (hw : Queued w)
    (new : Option Phase) (h : w.reqs.lookup id = some ph) (hsame : SameQueue w w')
    (hreqs : ∀ id', w'.reqs.lookup id' = if id' = id then new else w.reqs.lookup id')
    (hqueued : new.any Phase.queued = ph.queued)
    (hearly : ph.early = false → ∀ ph' ∈ new, ph'.early = false) : Queued w' where
  waiting := by rw [hsame.waiting, hsame.fifo, hw.waiting]
  queued id' := by
    rw [hsame.fifo, hw.queued, hreqs]
    by_cases hid : id' = id
    · subst hid
      rw [h, if_pos rfl]
      simp [← hqueued, Option.any_eq_true]
    · rw [if_neg hid]
  order := by
    rw [hsame.granted, hsame.fifo, hsame.enqueued]
    exact hw.order
  once := by
    rw [hsame.enqueued]
    exact hw.once
  past id' hid' ph₁ hph := by
    rw [hsame.enqueued] at hid'
    rw [hreqs] at hph
    by_cases hid : id' = id
    · rw [if_pos hid] at hph
      exact hearly (hw.past id' hid' ph (hid ▸ h)) ph₁ hph
    · rw [if_neg hid] at hph
      exact hw.past id' hid' ph₁ hph
  known id' ph₁ hph := by
    rw [hsame.next]
    rw [hreqs] at hph
    by_cases hid : id' = id
    · exact hid ▸ hw.known id ph h
    · rw [if_neg hid] at hph
      exact hw.known id' ph₁ hph
  came := by
    rw [hsame.enqueued, hsame.next]
    exact hw.came

theorem Queued.congr (hw : Queued w) (hsame : SameQueue w w')
    (hreqs : w'.reqs = w.reqs) : Queued w' where
  waiting := by rw [hsame.waiting, hsame.fifo, hw.waiting]
  queued id := by rw [hsame.fifo, hreqs, hw.queued]
  order := by
    rw [hsame.granted, hsame.fifo, hsame.enqueued]
    exact hw.order
  once := by
    rw [hsame.enqueued]
    exact hw.once
  past := by
    rw [hsame.enqueued, hreqs]
    exact hw.past
  known := by
    rw [hsame.next, hreqs]
    exact hw.known
  came := by
    rw [hsame.enqueued, hsame.next]
    exact hw.came

theorem Queued.fifo_nodup (hw : Queued w) : w.gate.fifo.Nodup :=
  hw.once.sublist ((List.sublist_append_right _ _).trans hw.order)

/-! ### Handing a slot over -/

/-- What `grantSlotLocked` does. -/
structure Granting (w : World) (out : World × Bool) : Prop where
  queued : Queued out.1
  slots : out.1.slots = w.slots + if out.2 then 1 else 0
  active : out.1.gate.active = w.gate.active
  limit : out.1.gate.limit = w.gate.limit
  cfg : out.1.cfg = w.cfg
  nobody : out.2 = false → out.1.gate.fifo = []
  somebody : out.2 = true → w.gate.fifo ≠ []
  keeps : ∀ id ph, w.reqs.lookup id = some ph → ph.queued = false →
    out.1.reqs.lookup id = some ph
  origin : ∀ id ph, out.1.reqs.lookup id = some ph →
    ∃ ph₀, w.reqs.lookup id = some ph₀ ∧ (ph = ph₀ ∨ ph.pending = true)

theorem grant_of_queued (h : ph.queued = true) :
    ph.grant.pending = true ∧ ph.grant.queued = false ∧ ph.grant.early = false ∧
      ph.grant.slot = 1 ∧ ph.slot = 0 := by
  cases ph with
  | waiting granted | leaving granted =>
    cases granted with
    | false => decide
    | true => exact absurd h (by decide)
  | _ => exact absurd h (by decide)

theorem grantSlotLocked_spec (hw : Queued w) : Granting w (grantSlotLocked w) := by
  unfold grantSlotLocked
  cases hfifo : w.gate.fifo with
  | nil =>
    exact ⟨hw, rfl, rfl, rfl, rfl, fun _ => hfifo, fun h => absurd h Bool.false_ne_true,
      fun _ _ h _ => h, fun id ph h => ⟨ph, h, Or.inl rfl⟩⟩
  | cons id rest =>
    obtain ⟨ph, hph, hqueued⟩ := (hw.queued id).1 (by rw [hfifo]; exact List.mem_cons_self)
    obtain ⟨hpending, hout, hlate, hone, hzero⟩ := grant_of_queued hqueued
    have hnd := hw.fifo_nodup
    rw [hfifo, List.nodup_cons] at hnd
    simp only [hph]
    have hlookup : ∀ id', (w.reqs.insert id ph.grant).lookup id' =
        if id' = id then some ph.grant else w.reqs.lookup id' := set_lookup w id ph.grant
    refine ⟨⟨?_, ?_, ?_, hw.once, ?_, ?_, hw.came⟩, ?_, rfl, rfl, rfl, ?_, ?_, ?_, ?_⟩
    · have hlen := hw.waiting
      rw [hfifo, List.length_cons] at hlen
      dsimp only
      omega
    · intro id'
      rw [hlookup]
      by_cases hid : id' = id
      · subst hid
        rw [if_pos rfl]
        refine iff_of_false hnd.1 ?_
        rintro ⟨_, ⟨⟩, h⟩
        exact absurd (h.symm.trans hout) (by decide)
      · rw [if_neg hid, ← hw.queued, hfifo]
        simp [hid]
    · have horder := hw.order
      rw [hfifo] at horder
      rwa [List.append_assoc, List.singleton_append]
    · intro id' hid' ph' hph'
      rw [hlookup] at hph'
      by_cases hid : id' = id
      · rw [if_pos hid] at hph'
        cases hph'
        exact hlate
      · rw [if_neg hid] at hph'
        exact hw.past id' hid' ph' hph'
    · intro id' ph' hph'
      rw [hlookup] at hph'
      by_cases hid : id' = id
      · exact hid ▸ hw.known id ph hph
      · rw [if_neg hid] at hph'
        exact hw.known id' ph' hph'
    · have hslots : (w.set id ph.grant).slots + ph.slot = w.slots + ph.grant.slot :=
        slots_set hph ph.grant
      rw [hone, hzero] at hslots
      exact hslots
    · intro h
      cases h
    · intro _
      rw [hfifo]
      exact List.cons_ne_nil _ _
    · intro id' ph' hph' hplain
      rw [hlookup, if_neg, hph']
      rintro rfl
      rw [hph] at hph'
      cases hph'
      exact absurd (hqueued.symm.trans hplain) (by decide)
    intro id' ph' hph'
    rw [hlookup] at hph'
    by_cases hid : id' = id
    · rw [if_pos hid] at hph'
      cases hph'
      exact ⟨ph, hid ▸ hph, Or.inr hpending⟩
    · rw [if_neg hid] at hph'
      exact ⟨ph', hph', Or.inl rfl⟩

/-! ## The active count -/

/-- The active count is covered by slots, whatever the settings do. -/
structure Covered (w : World) : Prop where
  nonneg : 0 ≤ w.gate.active
  covered : w.gate.active ≤ w.slots

/-- With the settings fixed the active count is the slots held or granted. -/
structure Exact (w : World) : Prop where
  active : w.gate.active = w.slots
  slots : ∀ id, w.reqs.lookup id ≠ some .passing
  synced : ∀ id ph, w.reqs.lookup id = some ph → w.gate.limit = w.cfg.limit
  bound : w.gate.active ≤ w.cfg.limit
  full : w.gate.active < w.cfg.limit → w.gate.fifo = []

/-- The count after the first half of `release`. -/
def World.freed (w : World) : Int := if w.gate.active > 0 then w.gate.active - 1 else w.gate.active

/-- What `release` does: the slot goes to the head of the queue or back. -/
structure Releasing (w w' : World) (handed : Bool) : Prop where
  queued : Queued w'
  slots : w'.slots = w.slots + if handed then 1 else 0
  active : w'.gate.active = w.freed + if handed then 1 else 0
  limit : w'.gate.limit = w.gate.limit
  cfg : w'.cfg = w.cfg
  nobody : handed = false → w'.gate.fifo = []
  somebody : handed = true → w.gate.fifo ≠ []
  origin : ∀ id ph, w'.reqs.lookup id = some ph →
    ∃ ph₀, w.reqs.lookup id = some ph₀ ∧ (ph = ph₀ ∨ ph.pending = true)

theorem release_spec (hw : Queued w) : ∃ handed, Releasing w (release w) handed := by
  let w₀ : World := { w with gate := { w.gate with active := w.freed } }
  have hfreed : (if w.gate.active > 0 then
      { w with gate := { w.gate with active := w.gate.active - 1 } } else w) = w₀ := by
    show _ = { w with gate := { w.gate with active := w.freed } }
    unfold World.freed
    split <;> rfl
  have hw₀ : Queued w₀ := hw.congr ⟨rfl, rfl, rfl, rfl, rfl⟩ rfl
  have hgrant := grantSlotLocked_spec hw₀
  cases hout : grantSlotLocked w₀ with
  | mk w' handed =>
    rw [hout] at hgrant
    have hrelease : release w = if handed then
        { w' with gate := { w'.gate with active := w'.gate.active + 1 } } else w' := by
      unfold release
      rw [hfreed]
      dsimp only
      rw [hout]
    refine ⟨handed, ?_⟩
    rw [hrelease]
    cases handed with
    | false =>
      refine ⟨hgrant.queued, hgrant.slots, ?_, hgrant.limit, hgrant.cfg, hgrant.nobody,
        hgrant.somebody, hgrant.origin⟩
      rw [if_neg Bool.false_ne_true, if_neg Bool.false_ne_true, hgrant.active]
      exact (Int.add_zero _).symm
    | true =>
      refine ⟨hgrant.queued.congr ⟨rfl, rfl, rfl, rfl, rfl⟩ rfl, hgrant.slots, ?_,
        hgrant.limit, hgrant.cfg, fun h => absurd h.symm Bool.false_ne_true,
        hgrant.somebody, hgrant.origin⟩
      show w'.gate.active + 1 = w.freed + 1
      rw [hgrant.active]

/-! ## One event -/

def World.Open (w : World) : Prop := w.cfg.enabled = true ∧ 0 < w.cfg.limit

/-- What holds whatever the settings do, and what holds while they are fixed. -/
structure Inv (fixed : Bool) (w : World) : Prop where
  queued : Queued w
  covered : Covered w
  exact_ : fixed = true → w.Open ∧ Exact w

variable {fixed : Bool}

theorem Inv.change (hw : Inv fixed w)
    (new : Option Phase) (h : w.reqs.lookup id = some ph) (hgate : w'.gate = w.gate)
    (hcfg : w'.cfg = w.cfg) (hsame : SameQueue w w')
    (hreqs : ∀ id', w'.reqs.lookup id' = if id' = id then new else w.reqs.lookup id')
    (hslots : w'.slots = w.slots) (hqueued : new.any Phase.queued = ph.queued)
    (hearly : ph.early = false → ∀ ph' ∈ new, ph'.early = false)
    (hpassing : fixed = true → new ≠ some .passing) : Inv fixed w' where
  queued := hw.queued.change new h hsame hreqs hqueued hearly
  covered := by
    refine ⟨?_, ?_⟩
    · rw [hgate]
      exact hw.covered.nonneg
    · rw [hgate, hslots]
      exact hw.covered.covered
  exact_ hfixed := by
    obtain ⟨hopen, hexact⟩ := hw.exact_ hfixed
    refine ⟨?_, ?_, ?_, ?_, ?_, ?_⟩
    · unfold World.Open
      rw [hcfg]
      exact hopen
    · rw [hgate, hslots]
      exact hexact.active
    · intro id'
      rw [hreqs]
      split
      · exact hpassing hfixed
      · exact hexact.slots id'
    · intro id' ph' hph'
      rw [hgate, hcfg]
      rw [hreqs] at hph'
      by_cases hid : id' = id
      · exact hexact.synced id ph h
      · rw [if_neg hid] at hph'
        exact hexact.synced id' ph' hph'
    · rw [hgate, hcfg]
      exact hexact.bound
    · rw [hgate, hcfg]
      exact hexact.full

theorem Inv.set (hw : Inv fixed w) {ph' : Phase}
    (h : w.reqs.lookup id = some ph) (hslot : ph'.slot = ph.slot)
    (hqueued : ph'.queued = ph.queued) (hearly : ph.early = false → ph'.early = false)
    (hpassing : fixed = true → ph' ≠ .passing) : Inv fixed (w.set id ph') := by
  refine hw.change (some ph') h rfl rfl ⟨rfl, rfl, rfl, rfl, rfl⟩ (set_lookup w id ph')
    ?_ hqueued ?_ ?_
  · have hslots := slots_set h ph'
    omega
  · rintro hlate _ ⟨⟩
    exact hearly hlate
  · intro hfixed heq
    exact hpassing hfixed (Option.some.inj heq)

theorem Inv.remove (hw : Inv fixed w)
    (h : w.reqs.lookup id = some ph) (hslot : ph.slot = 0) (hqueued : ph.queued = false) :
    Inv fixed (w.remove id) := by
  refine hw.change none h rfl rfl ⟨rfl, rfl, rfl, rfl, rfl⟩ (remove_lookup w id)
    ?_ hqueued.symm ?_ ?_
  · have hslots := slots_remove h
    omega
  · rintro - _ ⟨⟩
  · exact fun _ h => by cases h

theorem Inv.arrive (hw : Inv fixed w) :
    Inv fixed (step w .arrive) := by
  have hnew : w.reqs.lookup w.next = none := by
    by_contra hsome
    obtain ⟨ph, hph⟩ := Option.ne_none_iff_exists'.1 hsome
    exact absurd (hw.queued.known _ _ hph) (Nat.lt_irrefl _)
  have hlookup : ∀ id, (step w .arrive).reqs.lookup id =
      if id = w.next then some .synced else w.reqs.lookup id := set_lookup w w.next .synced
  have hslots : (step w .arrive).slots = w.slots :=
    (slots_set_new hnew .synced).trans (Nat.zero_add _)
  refine ⟨⟨hw.queued.waiting, ?_, hw.queued.order, hw.queued.once, ?_, ?_, ?_⟩, ⟨?_, ?_⟩, ?_⟩
  · intro id
    rw [hlookup]
    refine (hw.queued.queued id).trans ?_
    by_cases hid : id = w.next
    · subst hid
      simp [hnew, Phase.queued]
    · rw [if_neg hid]
  · intro id hid ph hph
    rw [hlookup, if_neg (Nat.ne_of_lt (hw.queued.came id hid))] at hph
    exact hw.queued.past id hid ph hph
  · intro id ph hph
    rw [hlookup] at hph
    show id < w.next + 1
    by_cases hid : id = w.next
    · omega
    · rw [if_neg hid] at hph
      exact Nat.lt_succ_of_lt (hw.queued.known id ph hph)
  · intro id hid
    exact Nat.lt_succ_of_lt (hw.queued.came id hid)
  · exact hw.covered.nonneg
  · rw [hslots]
    exact hw.covered.covered
  intro hfixed
  obtain ⟨hopen, hexact⟩ := hw.exact_ hfixed
  refine ⟨hopen, ?_, ?_, fun _ _ _ => rfl, hexact.bound, hexact.full⟩
  · rw [hslots]
    exact hexact.active
  intro id
  rw [hlookup]
  split
  · exact fun h => by cases h
  · exact hexact.slots id

theorem Inv.acquire (hw : Inv fixed w)
    (h : w.reqs.lookup id = some .checked) : Inv fixed (acquire w id) := by
  unfold ConcurrencyGate.acquire
  by_cases hoff : w.cfg.enabled = false ∨ w.gate.limit ≤ 0
  · -- the gate is off: only while the settings change
    rw [if_pos hoff]
    refine hw.set h rfl rfl (fun h => by cases h) fun hfixed => ?_
    obtain ⟨⟨henabled, hlimit⟩, hexact⟩ := hw.exact_ hfixed
    have hsynced := hexact.synced id _ h
    rcases hoff with hoff | hoff
    · exact absurd (henabled.symm.trans hoff) (by decide)
    · omega
  rw [if_neg hoff]
  by_cases hfree : w.gate.active < w.gate.limit
  · rw [if_pos hfree]
    have hslots := slots_set h .holding
    have hholding : Phase.slot .holding = 1 := rfl
    have hchecked : Phase.slot .checked = 0 := rfl
    have hnonneg := hw.covered.nonneg
    have hcovered := hw.covered.covered
    refine ⟨hw.queued.change (some .holding) h ⟨rfl, rfl, rfl, rfl, rfl⟩ (set_lookup w id .holding) rfl ?_,
      ⟨?_, ?_⟩, fun hfixed => ?_⟩
    · rintro - _ ⟨⟩
      rfl
    · show 0 ≤ w.gate.active + 1
      omega
    · show w.gate.active + 1 ≤ ((w.set id .holding).slots : Int)
      omega
    obtain ⟨hopen, hexact⟩ := hw.exact_ hfixed
    have hactive := hexact.active
    have hsynced := hexact.synced id _ h
    refine ⟨hopen, ?_, ?_, ?_, ?_, ?_⟩
    · show w.gate.active + 1 = ((w.set id .holding).slots : Int)
      omega
    · intro id'
      rw [set_lookup]
      split
      · exact fun h => by cases h
      · exact hexact.slots id'
    · exact fun _ _ _ => hsynced
    · show w.gate.active + 1 ≤ w.cfg.limit
      omega
    · intro _
      exact hexact.full (by omega)
  rw [if_neg hfree]
  by_cases hqueue : w.gate.queue > 0 ∧ w.gate.waiting ≥ w.gate.queue
  · rw [if_pos hqueue]
    exact hw.remove h rfl rfl
  rw [if_neg hqueue]
  have hfirst : id ∉ w.enqueued := fun hmem =>
    absurd (hw.queued.past id hmem _ h) (by decide)
  have hslots : (w.set id (.waiting false)).slots = w.slots := by
    have hset := slots_set h (.waiting false)
    have hwaiting : Phase.slot (.waiting false) = 0 := rfl
    have hchecked : Phase.slot .checked = 0 := rfl
    omega
  refine ⟨⟨?_, ?_, ?_, ?_, ?_, ?_, ?_⟩, ⟨hw.covered.nonneg, ?_⟩, fun hfixed => ?_⟩
  · have hlen := hw.queued.waiting
    show w.gate.waiting + 1 = ((w.gate.fifo ++ [id]).length : Int)
    rw [List.length_append, List.length_singleton]
    omega
  · intro id'
    rw [List.mem_append, List.mem_singleton, hw.queued.queued, set_lookup]
    by_cases hid : id' = id
    · rw [if_pos hid]
      exact iff_of_true (Or.inr hid) ⟨_, rfl, rfl⟩
    · rw [if_neg hid]
      simp [hid]
  · rw [← List.append_assoc]
    exact hw.queued.order.append (List.Sublist.refl _)
  · rw [List.nodup_append]
    refine ⟨hw.queued.once, List.nodup_singleton id, ?_⟩
    intro a ha b hb hab
    rw [List.mem_singleton] at hb
    exact hfirst (hb ▸ hab ▸ ha)
  · intro id' hid' ph' hph'
    have hph' : (w.set id (.waiting false)).reqs.lookup id' = some ph' := hph'
    rw [set_lookup] at hph'
    by_cases hid : id' = id
    · rw [if_pos hid] at hph'
      cases hph'
      rfl
    rw [if_neg hid] at hph'
    rcases List.mem_append.1 hid' with hmem | hmem
    · exact hw.queued.past id' hmem ph' hph'
    · exact absurd (List.mem_singleton.1 hmem) hid
  · intro id' ph' hph'
    have hph' : (w.set id (.waiting false)).reqs.lookup id' = some ph' := hph'
    rw [set_lookup] at hph'
    by_cases hid : id' = id
    · exact hid ▸ hw.queued.known id _ h
    · rw [if_neg hid] at hph'
      exact hw.queued.known id' ph' hph'
  · intro id' hid'
    rcases List.mem_append.1 hid' with hmem | hmem
    · exact hw.queued.came id' hmem
    · rw [List.mem_singleton.1 hmem]
      exact hw.queued.known id _ h
  · show w.gate.active ≤ ((w.set id (.waiting false)).slots : Int)
    rw [hslots]
    exact hw.covered.covered
  obtain ⟨hopen, hexact⟩ := hw.exact_ hfixed
  have hsynced := hexact.synced id _ h
  refine ⟨hopen, ?_, ?_, ?_, hexact.bound, ?_⟩
  · show w.gate.active = ((w.set id (.waiting false)).slots : Int)
    rw [hslots]
    exact hexact.active
  · intro id'
    rw [set_lookup]
    split
    · exact fun h => by cases h
    · exact hexact.slots id'
  · exact fun _ _ _ => hsynced
  · intro hroom
    have hroom : w.gate.active < w.cfg.limit := hroom
    omega

theorem not_passing_of_origin
    (horigin : ∀ id ph, w'.reqs.lookup id = some ph →
      ∃ ph₀, w.reqs.lookup id = some ph₀ ∧ (ph = ph₀ ∨ ph.pending = true))
    (hw : ∀ id, w.reqs.lookup id ≠ some .passing) (id : Nat) :
    w'.reqs.lookup id ≠ some .passing := by
  intro hph
  obtain ⟨ph₀, hph₀, rfl | hpending⟩ := horigin id _ hph
  · exact hw id hph₀
  · exact absurd hpending (by decide)

/-- A waiter that leaves with a slot it was granted passes it on or gives it back. -/
theorem Inv.leaveGranted (hw : Inv fixed w)
    (h : w.reqs.lookup id = some (.leaving true)) : Inv fixed (leave w id true) := by
  have hgrant := grantSlotLocked_spec hw.queued
  unfold ConcurrencyGate.leave
  rw [if_pos rfl]
  cases hout : grantSlotLocked w with
  | mk w' handed =>
    rw [hout] at hgrant
    have hid := hgrant.keeps id _ h rfl
    have hleaves := slots_remove hid
    have hone : Phase.slot (.leaving true) = 1 := rfl
    have hslots := hgrant.slots
    have hactive := hgrant.active
    have hnonneg := hw.covered.nonneg
    have hcovered := hw.covered.covered
    have hqueued : Queued (w'.remove id) :=
      hgrant.queued.change none hid ⟨rfl, rfl, rfl, rfl, rfl⟩ (remove_lookup w' id) rfl
        (by rintro - _ ⟨⟩)
    have hpassing : fixed = true → ∀ id', (w'.remove id).reqs.lookup id' ≠ some .passing := by
      intro hfixed id'
      rw [remove_lookup]
      split
      · exact fun h => by cases h
      · exact not_passing_of_origin hgrant.origin (hw.exact_ hfixed).2.slots id'
    have hopen : fixed = true → w'.Open ∧ w'.gate.limit = w'.cfg.limit := by
      intro hfixed
      obtain ⟨hopen, hexact⟩ := hw.exact_ hfixed
      unfold World.Open
      rw [hgrant.limit, hgrant.cfg]
      exact ⟨hopen, hexact.synced id _ h⟩
    dsimp only at hslots hactive hleaves ⊢
    cases handed with
    | true =>
      have hsome := hgrant.somebody rfl
      rw [if_neg (fun h => Bool.false_ne_true h.1.symm)]
      rw [if_pos rfl] at hslots
      refine ⟨hqueued, ⟨?_, ?_⟩, fun hfixed => ?_⟩
      · show 0 ≤ w'.gate.active
        omega
      · show w'.gate.active ≤ ((w'.remove id).slots : Int)
        omega
      obtain ⟨-, hexact⟩ := hw.exact_ hfixed
      have hexactly := hexact.active
      have hbound := hexact.bound
      have hfull : ¬w.gate.active < w.cfg.limit := fun hroom => hsome (hexact.full hroom)
      have hcfg : w'.cfg = w.cfg := hgrant.cfg
      refine ⟨(hopen hfixed).1, ?_, hpassing hfixed, fun _ _ _ => (hopen hfixed).2, ?_, ?_⟩
      · show w'.gate.active = ((w'.remove id).slots : Int)
        omega
      · show w'.gate.active ≤ w'.cfg.limit
        rw [hcfg]
        omega
      intro hroom
      have hroom : w'.gate.active < w'.cfg.limit := hroom
      rw [hcfg] at hroom
      omega
    | false =>
      have hnobody := hgrant.nobody rfl
      rw [if_neg Bool.false_ne_true] at hslots
      by_cases hpos : w'.gate.active > 0
      · rw [if_pos ⟨rfl, hpos⟩]
        refine ⟨hqueued.congr ⟨rfl, rfl, rfl, rfl, rfl⟩ rfl, ⟨?_, ?_⟩, fun hfixed => ?_⟩
        · show 0 ≤ w'.gate.active - 1
          omega
        · show w'.gate.active - 1 ≤ ((w'.remove id).slots : Int)
          omega
        obtain ⟨-, hexact⟩ := hw.exact_ hfixed
        have hexactly := hexact.active
        have hbound := hexact.bound
        have hcfg : w'.cfg = w.cfg := hgrant.cfg
        refine ⟨(hopen hfixed).1, ?_, hpassing hfixed, fun _ _ _ => (hopen hfixed).2, ?_,
          fun _ => hnobody⟩
        · show w'.gate.active - 1 = ((w'.remove id).slots : Int)
          omega
        · show w'.gate.active - 1 ≤ w'.cfg.limit
          rw [hcfg]
          omega
      rw [if_neg (fun h => hpos h.2)]
      refine ⟨hqueued, ⟨?_, ?_⟩, fun hfixed => ?_⟩
      · show 0 ≤ w'.gate.active
        omega
      · show w'.gate.active ≤ ((w'.remove id).slots : Int)
        omega
      · obtain ⟨-, hexact⟩ := hw.exact_ hfixed
        have hexactly := hexact.active
        omega

theorem Inv.leaveQueue (hw : Inv fixed w)
    (h : w.reqs.lookup id = some (.leaving false)) : Inv fixed (leave w id false) := by
  have hmem : id ∈ w.gate.fifo := (hw.queued.queued id).2 ⟨_, h, rfl⟩
  have hnd := hw.queued.fifo_nodup
  have hslots : (w.remove id).slots = w.slots := by
    have hremove := slots_remove h
    have hzero : Phase.slot (.leaving false) = 0 := rfl
    omega
  unfold ConcurrencyGate.leave
  rw [if_neg Bool.false_ne_true, if_pos hmem]
  refine ⟨⟨?_, ?_, ?_, hw.queued.once, ?_, ?_, hw.queued.came⟩, ⟨hw.covered.nonneg, ?_⟩,
    fun hfixed => ?_⟩
  · have hlen := hw.queued.waiting
    have hpos := List.length_pos_of_mem hmem
    show w.gate.waiting - 1 = ((w.gate.fifo.erase id).length : Int)
    rw [List.length_erase_of_mem hmem]
    omega
  · intro id'
    rw [hnd.mem_erase_iff, hw.queued.queued, remove_lookup]
    by_cases hid : id' = id
    · simp [hid]
    · simp [hid]
  · exact ((List.Sublist.refl _).append List.erase_sublist).trans hw.queued.order
  · intro id' hid' ph' hph'
    have hph' : (w.remove id).reqs.lookup id' = some ph' := hph'
    rw [remove_lookup] at hph'
    by_cases hid : id' = id
    · rw [if_pos hid] at hph'
      cases hph'
    · rw [if_neg hid] at hph'
      exact hw.queued.past id' hid' ph' hph'
  · intro id' ph' hph'
    have hph' : (w.remove id).reqs.lookup id' = some ph' := hph'
    rw [remove_lookup] at hph'
    by_cases hid : id' = id
    · rw [if_pos hid] at hph'
      cases hph'
    · rw [if_neg hid] at hph'
      exact hw.queued.known id' ph' hph'
  · show w.gate.active ≤ ((w.remove id).slots : Int)
    rw [hslots]
    exact hw.covered.covered
  obtain ⟨hopen, hexact⟩ := hw.exact_ hfixed
  refine ⟨hopen, ?_, ?_, fun _ _ _ => hexact.synced id _ h, hexact.bound, ?_⟩
  · show w.gate.active = ((w.remove id).slots : Int)
    rw [hslots]
    exact hexact.active
  · intro id'
    rw [remove_lookup]
    split
    · exact fun h => by cases h
    · exact hexact.slots id'
  · intro hroom
    rw [hexact.full hroom, List.erase_nil]

theorem Inv.finish (hw : Inv fixed w)
    (h : w.reqs.lookup id = some ph) (hinside : ph = .holding ∨ ph = .passing) :
    Inv fixed (release (w.remove id)) := by
  have hqueued : Queued (w.remove id) := by
    refine hw.queued.change none h ⟨rfl, rfl, rfl, rfl, rfl⟩ (remove_lookup w id) ?_
      (by rintro - _ ⟨⟩)
    rcases hinside with rfl | rfl <;> rfl
  obtain ⟨handed, hrelease⟩ := release_spec hqueued
  have hleaves := slots_remove h
  have hslots := hrelease.slots
  have hactive := hrelease.active
  have hnonneg := hw.covered.nonneg
  have hcovered := hw.covered.covered
  have hfreed : (w.remove id).freed = if w.gate.active > 0 then w.gate.active - 1 else w.gate.active :=
    rfl
  have hslot : ph.slot ≤ 1 := by
    unfold Phase.slot
    split <;> omega
  refine ⟨hrelease.queued, ⟨?_, ?_⟩, fun hfixed => ?_⟩
  · split at hfreed <;> split at hactive <;> omega
  · split at hfreed <;> cases handed <;> simp only [if_true, Bool.false_eq_true, if_false] at * <;>
      omega
  obtain ⟨hopen, hexact⟩ := hw.exact_ hfixed
  have hholding : ph.slot = 1 := by
    rcases hinside with rfl | rfl
    · rfl
    · exact absurd h (hexact.slots id)
  have hexactly := hexact.active
  have hbound := hexact.bound
  have hcfg : (release (w.remove id)).cfg = w.cfg := hrelease.cfg
  have hlimit : (release (w.remove id)).gate.limit = w.gate.limit := hrelease.limit
  rw [if_pos (by omega)] at hfreed
  refine ⟨?_, ?_, ?_, ?_, ?_, ?_⟩
  · unfold World.Open
    rw [hcfg]
    exact hopen
  · cases handed <;> simp only [if_true, Bool.false_eq_true, if_false] at * <;> omega
  · refine not_passing_of_origin hrelease.origin fun id' => ?_
    rw [remove_lookup]
    split
    · exact fun h => by cases h
    · exact hexact.slots id'
  · intro _ _ _
    rw [hlimit, hcfg]
    exact hexact.synced id ph h
  · rw [hcfg]
    cases handed <;> simp only [if_true, Bool.false_eq_true, if_false] at * <;> omega
  intro hroom
  rw [hcfg] at hroom
  cases handed with
  | false => exact hrelease.nobody rfl
  | true =>
    -- the slot went to a waiter, so it was not free before
    have hwaited : w.gate.fifo ≠ [] := hrelease.somebody rfl
    simp only [if_true] at hactive
    exact absurd (hexact.full (by omega)) hwaited

theorem Inv.step (hw : Inv fixed w) {e : Event}
    (he : fixed = true → ∀ cfg, e ≠ .configure cfg) : Inv fixed (step w e) := by
  cases e with
  | configure cfg =>
    refine ⟨hw.queued.congr ⟨rfl, rfl, rfl, rfl, rfl⟩ rfl,
      ⟨hw.covered.nonneg, hw.covered.covered⟩, fun hfixed => absurd rfl (he hfixed cfg)⟩
  | arrive => exact hw.arrive
  | check id =>
    simp only [ConcurrencyGate.step]
    split
    · next h =>
      split
      · exact hw.remove h rfl rfl
      · exact hw.set h rfl rfl (fun h => h) fun _ h => by cases h
    · exact hw
  | acquire id =>
    simp only [ConcurrencyGate.step]
    split
    · next h => exact hw.acquire h
    · exact hw
  | resume id =>
    simp only [ConcurrencyGate.step]
    split
    · next h => exact hw.set h rfl rfl (fun _ => rfl) fun _ h => by cases h
    · exact hw
  | timer id =>
    simp only [ConcurrencyGate.step]
    split
    · next granted h =>
      exact hw.set h (by cases granted <;> rfl) rfl (fun _ => rfl) fun _ h => by cases h
    · exact hw
  | leave id =>
    simp only [ConcurrencyGate.step]
    split
    · next granted h =>
      cases granted with
      | true => exact hw.leaveGranted h
      | false => exact hw.leaveQueue h
    · exact hw
  | finish id =>
    simp only [ConcurrencyGate.step]
    split
    · next h => exact hw.finish h (Or.inl rfl)
    · next h => exact hw.finish h (Or.inr rfl)
    · exact hw

/-! ## Every run -/

theorem inv_start (cfg : Config) (fixed : Bool)
    (hfixed : fixed = true → cfg.enabled = true ∧ 0 < cfg.limit) : Inv fixed (start cfg) where
  queued := by
    refine ⟨rfl, ?_, List.Sublist.refl _, List.nodup_nil, ?_, ?_, ?_⟩ <;> simp [start]
  covered := ⟨Int.le_refl 0, Int.le_refl 0⟩
  exact_ h := by
    have hopen := hfixed h
    refine ⟨hopen, rfl, ?_, ?_, Int.le_of_lt hopen.2, fun _ => rfl⟩ <;> simp [start]

theorem inv_run (cfg : Config) (fixed : Bool)
    (hfixed : fixed = true → cfg.enabled = true ∧ 0 < cfg.limit) (es : List Event)
    (hes : fixed = true → ∀ e ∈ es, ∀ cfg', e ≠ .configure cfg') :
    Inv fixed (run step (start cfg) es) := by
  have hmeets : Meets (fun _ e => fixed = true → ∀ cfg', e ≠ .configure cfg') step (start cfg)
      es :=
    meets_of_forall fun e he hf => hes hf e he
  exact run_invariant (Inv fixed) (fun _ _ hw he => hw.step he) (inv_start cfg fixed hfixed) hmeets

theorem grantSlotLocked_cfg (w : World) : (grantSlotLocked w).1.cfg = w.cfg := by
  unfold grantSlotLocked
  split <;> rfl

theorem acquire_cfg (w : World) (id : Nat) : (acquire w id).cfg = w.cfg := by
  unfold acquire
  split
  · rfl
  · split
    · rfl
    · split <;> rfl

theorem leave_cfg (w : World) (id : Nat) (granted : Bool) : (leave w id granted).cfg = w.cfg := by
  unfold leave
  split
  · dsimp only
    split <;> exact grantSlotLocked_cfg w
  · split <;> rfl

theorem release_cfg (w : World) : (release w).cfg = w.cfg := by
  unfold release
  dsimp only
  split <;> split <;> exact grantSlotLocked_cfg _

theorem step_cfg {e : Event} (he : ∀ cfg, e ≠ .configure cfg) :
    (step w e).cfg = w.cfg := by
  cases e with
  | configure cfg => exact absurd rfl (he cfg)
  | arrive => rfl
  | check id =>
    simp only [step]
    split
    · split <;> rfl
    · rfl
  | acquire id =>
    simp only [step]
    split
    · exact acquire_cfg w id
    · rfl
  | resume id | timer id =>
    simp only [step]
    split <;> rfl
  | leave id =>
    simp only [step]
    split
    · exact leave_cfg w id _
    · rfl
  | finish id =>
    simp only [step]
    split
    · exact release_cfg _
    · exact release_cfg _
    · rfl

theorem run_cfg (w : World) (es : List Event) (hes : ∀ e ∈ es, ∀ cfg, e ≠ .configure cfg) :
    (run step w es).cfg = w.cfg := by
  induction es generalizing w with
  | nil => rfl
  | cons e es ih =>
    rw [run_cons, ih _ fun e' he' => hes e' (List.mem_cons_of_mem _ he')]
    exact step_cfg (hes e List.mem_cons_self)

theorem idle_counters (hq : Queued w) (hc : Covered w) (hidle : w.Idle) :
    w.gate.active = 0 ∧ w.gate.waiting = 0 := by
  have hslots : w.slots = 0 := by
    refine List.sum_eq_zero fun n hn => ?_
    obtain ⟨e, he, rfl⟩ := List.mem_map.1 hn
    have hearly := hidle e.1 e.2 (AList.mem_lookup_iff.2 he)
    cases hph : e.2 <;> simp_all [Phase.early, Phase.slot, Phase.pending]
  have hfifo : w.gate.fifo = [] := by
    rw [List.eq_nil_iff_forall_not_mem]
    intro id hid
    obtain ⟨ph, hph, hqueued⟩ := (hq.queued id).1 hid
    have hearly := hidle id ph hph
    cases ph <;> simp_all [Phase.early, Phase.queued]
  refine ⟨?_, ?_⟩
  · have hnonneg := hc.nonneg
    have hcovered := hc.covered
    omega
  · rw [hq.waiting, hfifo]
    rfl

/-- One slot, two requests: the second is granted the slot while it takes its
    time-out branch, and gives it back. -/
def handOver : List Event :=
  [.arrive, .check 0, .acquire 0, .arrive, .check 1, .acquire 1, .timer 1, .finish 0, .leave 1]

end NewApi.ConcurrencyGate
