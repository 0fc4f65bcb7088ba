/-
  NewApi.TrainingCapture.Records

  Where `splitBySize` and `resplitCompressedBetter` cut a payload of records, and
  how large their chunks are.

  A bound that is positive is kept, and a record is cut by `splitBySize` only where it is
  longer than the bound.  `resplitCompressedBetter` cuts by an estimate that it
  halves, so it also cuts records that would fit, and it stops halving at some depth.
-/

import NewApi.TrainingCapture.Parts

namespace NewApi.TrainingCapture

/-! ## Cuts -/

/-- The record that a cut between `before` and `after` is in. -/
def cutRecord (before after : List UInt8) : List UInt8 :=
  before.rtakeWhile (· ≠ newline) ++ after.take ((after.takeWhile (· ≠ newline)).length + 1)

def CutsRecord (before after : List UInt8) : Prop :=
  before.rtakeWhile (· ≠ newline) ≠ [] ∧ after ≠ []

/-- Where the chunks cut a record in two, `P` holds of what is before and after the cut. -/
def CutsOnly (P : List UInt8 → List UInt8 → Prop) (chunks : List (List UInt8)) : Prop :=
  ∀ l l', chunks = l ++ l' → CutsRecord l.flatten l'.flatten → P l.flatten l'.flatten

variable {before after x y payload raw c : List UInt8} {maxBytes size : Nat}
  {P Q : List UInt8 → List UInt8 → Prop} {chunks : List (List UInt8)}

theorem CutsRecord.ne_nil (h : CutsRecord before after) : before ≠ [] := by
  rintro rfl
  exact h.1 (List.rtakeWhile_nil _)

theorem CutsRecord.of_append (h : CutsRecord (x ++ before) (after ++ y)) (hbefore : before ≠ [])
    (hafter : after ≠ []) : CutsRecord before after := by
  refine ⟨fun hnil => h.1 ?_, hafter⟩
  rw [List.rtakeWhile_eq_nil_iff] at hnil ⊢
  intro _
  rw [List.getLast_append_of_ne_nil _ hbefore]
  exact hnil hbefore

theorem takeWhile_prefix_append (p : UInt8 → Bool) :
    before.takeWhile p <+: (before ++ x).takeWhile p := by
  rw [List.takeWhile_append]
  split
  · exact (List.takeWhile_prefix p).trans (List.prefix_append _ _)
  · exact List.prefix_rfl

theorem length_cutRecord_le (x y : List UInt8) :
    (cutRecord before after).length ≤ (cutRecord (x ++ before) (after ++ y)).length := by
  have hbefore : (before.rtakeWhile (· ≠ newline)).length ≤
      ((x ++ before).rtakeWhile (· ≠ newline)).length := by
    unfold List.rtakeWhile
    rw [List.reverse_append, List.length_reverse, List.length_reverse]
    exact (takeWhile_prefix_append _).length_le
  have hafter := (@takeWhile_prefix_append after y (· ≠ newline)).length_le
  unfold cutRecord
  simp only [List.length_append, List.length_take] at hbefore hafter ⊢
  omega

theorem CutsOnly.mono (h : CutsOnly P chunks)
    (hPQ : ∀ before after, before ++ after = chunks.flatten → P before after → Q before after) :
    CutsOnly Q chunks := by
  rintro l l' rfl hcut
  exact hPQ _ _ List.flatten_append.symm (h l l' rfl hcut)

theorem cutsOnly_singleton (c : List UInt8) : CutsOnly P [c] := by
  intro l l' heq hcut
  obtain ⟨rfl, -⟩ | ⟨-, rfl⟩ := List.singleton_eq_append_iff.1 heq
  · exact absurd rfl hcut.ne_nil
  · exact absurd rfl hcut.2

theorem cutsOnly_pair (h : CutsRecord before after → P before after) :
    CutsOnly P [before, after] := by
  intro l l' heq hcut
  rcases l with _ | ⟨a, _ | ⟨b, l⟩⟩
  · exact absurd rfl hcut.ne_nil
  · obtain ⟨rfl, rfl⟩ := List.cons_eq_cons.1 heq
    simpa using h (by simpa using hcut)
  · simp only [List.cons_append, List.cons.injEq, List.nil_eq, List.append_eq_nil_iff] at heq
    rw [heq.2.2.2] at hcut
    exact absurd rfl hcut.2

/-- Chunks that are cut again: a cut is between two of them, or in one. -/
theorem CutsOnly.flatten {css : List (List (List UInt8))}
    (hcs : CutsOnly P (css.map List.flatten)) (hin : ∀ cs ∈ css, CutsOnly P cs)
    (hmono : ∀ x y before after, P before after → P (x ++ before) (after ++ y)) :
    CutsOnly P css.flatten := by
  intro l l' heq hcut
  obtain ⟨as, bs, rfl, rfl, rfl⟩ | ⟨as, bs, c, cs, ds, rfl, rfl, rfl⟩ :=
    List.flatten_eq_append_iff.1 heq
  · have hbetween := hcs (as.map List.flatten) (bs.map List.flatten) (by rw [List.map_append])
    rw [← List.flatten_flatten, ← List.flatten_flatten] at hbetween
    exact hbetween hcut
  rw [List.flatten_append, List.flatten_append, List.flatten_flatten, List.flatten_flatten]
    at hcut ⊢
  by_cases hbs : bs.flatten = []
  · have hbetween := hcs (as.map List.flatten)
      ((bs ++ c :: cs).flatten :: ds.map List.flatten) (by simp)
    rw [List.flatten_cons, List.flatten_append, hbs, List.nil_append] at hbetween
    rw [hbs, List.append_nil] at hcut ⊢
    exact hbetween hcut
  by_cases hcs' : (c :: cs).flatten = []
  · have hbetween := hcs (as.map List.flatten ++ [(bs ++ c :: cs).flatten])
      (ds.map List.flatten) (by simp)
    rw [@List.flatten_append _ bs, hcs', List.append_nil, List.flatten_concat] at hbetween
    rw [hcs', List.nil_append] at hcut ⊢
    exact hbetween hcut
  · exact hmono _ _ _ _ (hin _ (by simp) bs (c :: cs) rfl (hcut.of_append hbs hcs'))

/-! ## Chunks of one size -/

theorem cut_le (hlong : maxBytes < payload.length) : cut payload maxBytes ≤ maxBytes := by
  have hle := (List.rdropWhile_prefix (· ≠ newline) (l := payload.take maxBytes)).length_le
  rw [List.length_take_of_le (Nat.le_of_lt hlong)] at hle
  unfold cut
  dsimp only
  split
  · exact Nat.le_refl _
  · exact hle

/-- A cut is at the end of a record, or after `maxBytes` of one. -/
theorem cut_long (hlong : maxBytes < payload.length)
    (hcut : CutsRecord (payload.take (cut payload maxBytes))
      (payload.drop (cut payload maxBytes))) :
    maxBytes < (cutRecord (payload.take (cut payload maxBytes))
      (payload.drop (cut payload maxBytes))).length := by
  have hup : (payload.take maxBytes).rdropWhile (· ≠ newline) = [] := by
    by_contra hup
    refine hcut.1 ?_
    have hcuteq : payload.take (cut payload maxBytes) =
        (payload.take maxBytes).rdropWhile (· ≠ newline) := by
      unfold cut
      rw [if_neg (fun hlen => hup (List.length_eq_zero_iff.1 hlen))]
      exact (List.prefix_iff_eq_take.1
        ((List.rdropWhile_prefix _ _).trans (List.take_prefix _ _))).symm
    rw [hcuteq, List.rtakeWhile_eq_nil_iff]
    exact fun hne => List.rdropWhile_last_not _ _ hne
  have hcuteq : cut payload maxBytes = maxBytes := by
    unfold cut
    rw [hup]
    rfl
  rw [hcuteq] at hcut ⊢
  rw [List.rdropWhile_eq_nil_iff] at hup
  have hafter := List.length_pos_iff.2 hcut.2
  rw [cutRecord, List.rtakeWhile_eq_self_iff.2 hup, List.length_append, List.length_take,
    List.length_take]
  omega

theorem splitLoop_spec (hpos : 0 < maxBytes) (payload : List UInt8) :
    (∀ c ∈ splitLoop maxBytes hpos payload, c.length ≤ maxBytes) ∧
      CutsOnly (fun before after => maxBytes < (cutRecord before after).length)
        (splitLoop maxBytes hpos payload) := by
  induction payload using splitLoop.induct maxBytes hpos with
  | case1 => simp [splitLoop, CutsOnly, CutsRecord]
  | case2 payload hne hle =>
    rw [splitLoop, if_neg hne, if_pos hle]
    exact ⟨by simpa using hle, cutsOnly_singleton _⟩
  | case3 payload hne hlong ih =>
    rw [Nat.not_le] at hlong
    rw [splitLoop, if_neg hne, if_neg (Nat.not_le.2 hlong)]
    constructor
    · rw [List.forall_mem_cons]
      exact ⟨Nat.le_trans (List.length_take_le _ _) (cut_le hlong), ih.1⟩
    have htwo := cutsOnly_pair (P := fun before after =>
      maxBytes < (cutRecord before after).length) (cut_long hlong)
    have hflat := @CutsOnly.flatten _
      [[payload.take (cut payload maxBytes)],
        splitLoop maxBytes hpos (payload.drop (cut payload maxBytes))]
      (by simpa [splitLoop_flatten] using htwo)
      (by simpa using ⟨cutsOnly_singleton _, ih.2⟩)
      (fun x y _ _ h => Nat.lt_of_lt_of_le h (length_cutRecord_le x y))
    simpa using hflat

theorem splitBySize_spec (hpos : 0 < maxBytes) (payload : List UInt8) :
    (∀ c ∈ splitBySize payload maxBytes, c.length ≤ maxBytes) ∧
      CutsOnly (fun before after => maxBytes < (cutRecord before after).length)
        (splitBySize payload maxBytes) := by
  unfold splitBySize
  split
  · simp [CutsOnly, CutsRecord]
  rw [dif_neg (Nat.ne_of_gt hpos)]
  split
  · rename_i hle
    exact ⟨by simpa using hle, cutsOnly_singleton _⟩
  · exact splitLoop_spec hpos payload

theorem splitBySize_short (hne : payload ≠ []) (hle : payload.length ≤ size) :
    splitBySize payload size = [payload] := by
  rw [splitBySize, if_neg hne]
  split <;> rfl

theorem length_le_of_single (hpos : 0 < size) (hone : (splitBySize raw size).length = 1 ∧
    ((splitBySize raw size).headD []).length = raw.length) : raw.length ≤ size := by
  obtain ⟨a, ha⟩ := List.length_eq_one_iff.1 hone.1
  have hle := (splitBySize_spec hpos raw).1 a (by rw [ha]; exact List.mem_singleton_self _)
  rw [ha] at hone
  exact hone.2 ▸ hle

/-! ## Chunks that fit when they are compressed -/

namespace Codec

variable (z : Codec)

/-- The compressed chunk is within the limit of one write. -/
def Fits (limit : Nat) (chunk : List UInt8) : Prop :=
  (z.gzip chunk).any fun blob => blob.length ≤ limit

/-- The cut is in a piece that does not fit, in a record that is longer than the first
    estimate or than half of the piece. -/
def CutsPoorly (limit first : Nat) (before after : List UInt8) : Prop :=
  ∃ b a, b <:+ before ∧ a <+: after ∧ ¬ z.Fits limit (b ++ a) ∧
    min first ((b ++ a).length / 2) < (cutRecord before after).length

/-- What `resplitRecursive` may be called with, after the estimate `first` was halved `h` times. -/
structure Within (first : Nat) (raw : List UInt8) (subSize depth : Nat) : Prop where
  pos : 0 < subSize
  half : min first (raw.length / 2) ≤ subSize
  deep : ∃ h, subSize * 2 ^ h ≤ first ∧
    (depth ≤ 2 * h ∨ raw.length ≤ subSize ∧ depth ≤ 2 * h + 1)

variable {z} {limit first subSize depth : Nat}

theorem CutsPoorly.append (x y : List UInt8) (h : z.CutsPoorly limit first before after) :
    z.CutsPoorly limit first (x ++ before) (after ++ y) := by
  obtain ⟨b, a, hb, ha, hfits, hlong⟩ := h
  exact ⟨b, a, hb.trans (List.suffix_append _ _), ha.trans (List.prefix_append _ _), hfits,
    Nat.lt_of_lt_of_le hlong (length_cutRecord_le x y)⟩

theorem Within.halved (h : Within first raw subSize depth) (hle : raw.length ≤ subSize)
    (hlarge : 1 < subSize) : Within first raw (subSize / 2) (depth + 1) := by
  obtain ⟨-, -, n, hn, hdepth⟩ := h
  refine ⟨by omega, by omega, n + 1, ?_, .inl (by omega)⟩
  calc subSize / 2 * 2 ^ (n + 1) = subSize / 2 * 2 * 2 ^ n := by rw [pow_succ', mul_assoc]
    _ ≤ subSize * 2 ^ n := Nat.mul_le_mul_right _ (Nat.div_mul_le_self _ _)
    _ ≤ first := hn

theorem Within.chunk (h : Within first raw subSize depth) (hlong : subSize < raw.length)
    (hle : c.length ≤ subSize) : Within first c subSize (depth + 1) := by
  obtain ⟨hpos, -, n, hn, hdepth⟩ := h
  exact ⟨hpos, by omega, n, hn, .inr ⟨hle, by omega⟩⟩

theorem resplitRecursive_cut (hfits : ¬ z.Fits limit raw)
    (hmany : ¬ ((splitBySize raw subSize).length = 1 ∧
      ((splitBySize raw subSize).headD []).length = raw.length)) :
    z.resplitRecursive raw limit subSize depth = ((splitBySize raw subSize).map
      fun c => z.resplitRecursive c limit subSize (depth + 1)).flatten := by
  unfold Fits at hfits
  rw [resplitRecursive, if_neg hfits, dif_neg hmany]
  simp [List.flatMap_def]

theorem resplitRecursive_spec (h : Within first raw subSize depth) :
    (∀ c ∈ z.resplitRecursive raw limit subSize depth,
      z.Fits limit c ∨ c.length ≤ 1 ∨ c.length * 2 ^ 16 ≤ first) ∧
    CutsOnly (z.CutsPoorly limit first) (z.resplitRecursive raw limit subSize depth) := by
  induction raw, subSize, depth using resplitRecursive.induct z limit with
  | case1 raw subSize depth hfits =>
    rw [resplitRecursive, if_pos hfits]
    exact ⟨by simpa using .inl hfits, cutsOnly_singleton _⟩
  | case2 raw subSize depth hfits hone hend =>
    rw [resplitRecursive, if_neg hfits, dif_pos hone, if_pos hend]
    refine ⟨?_, cutsOnly_singleton _⟩
    rw [List.forall_mem_singleton]
    have hle : raw.length ≤ subSize := length_le_of_single h.pos hone
    obtain ⟨-, -, n, hn, hdepth⟩ := h
    rcases hend with hsmall | hdeep
    · exact .inr (.inl (Nat.le_trans hle hsmall))
    · have hpow : 2 ^ 16 ≤ 2 ^ n := Nat.pow_le_pow_right (by omega) (by omega)
      exact .inr (.inr (Nat.le_trans (Nat.mul_le_mul hle hpow) hn))
  | case3 raw subSize depth hfits hone hend ih =>
    rw [resplitRecursive, if_neg hfits, dif_pos hone, if_neg hend]
    exact ih (h.halved (length_le_of_single h.pos hone) (by omega))
  | case4 raw subSize depth hfits hmany ih =>
    rw [resplitRecursive_cut hfits hmany]
    by_cases hnil : raw = []
    · rw [hnil, splitBySize, if_pos rfl]
      simp [CutsOnly, CutsRecord]
    have hlong : subSize < raw.length := by
      by_contra hle
      refine hmany ?_
      rw [splitBySize_short hnil (Nat.not_lt.1 hle)]
      exact ⟨rfl, rfl⟩
    obtain ⟨hsize, hcuts⟩ := splitBySize_spec h.pos raw
    have hchunks : ∀ c ∈ splitBySize raw subSize, _ := fun c hc =>
      ih c hc (h.chunk hlong (hsize c hc))
    constructor
    · simp only [List.mem_flatten, List.mem_map]
      rintro c ⟨-, ⟨piece, hpiece, rfl⟩, hc⟩
      exact (hchunks piece hpiece).1 c hc
    · refine CutsOnly.flatten ?_ ?_ fun x y _ _ => CutsPoorly.append x y
      · have hflat : ∀ c, (z.resplitRecursive c limit subSize (depth + 1)).flatten = c :=
          fun c => z.resplitRecursive_flatten c limit subSize _
        simp only [List.map_map, Function.comp_def, hflat, List.map_id']
        refine hcuts.mono fun before after hraw hcut => ?_
        rw [splitBySize_flatten] at hraw
        refine ⟨before, after, List.suffix_rfl, List.prefix_rfl, hraw ▸ hfits, ?_⟩
        rw [hraw]
        exact Nat.lt_of_le_of_lt h.half hcut
      · simp only [List.mem_map]
        rintro - ⟨piece, hpiece, rfl⟩
        exact (hchunks piece hpiece).2

/-- Compression that does nothing: the estimate is then half of the limit. -/
def stored : Codec where
  gzip := some
  unpack := id
  unpack_gzip _ := rfl
  subSize _ limit := limit / 2

end Codec

end NewApi.TrainingCapture
