import JsxLint.Proofs.Edit.Merge
import JsxLint.Proofs.Edit.Shift
import JsxLint.Proofs.Success

/-!
Two fixes of one source that do not conflict, carried out one after the other. The edits of the
second have to be moved by what the first has inserted and deleted in front of them; then it does
not matter which of the two goes first. Fixes that conflict have no common result and are left out.
-/

namespace JsxLint
namespace Edit

/-- The edit comes first in the order of ranges, by start and then by stop. -/
def before (a b : Edit) : Bool :=
  a.start < b.start ∨ (a.start = b.start ∧ a.stop < b.stop)

/-- By how much some edits move what comes after them up to an edit. -/
def growthBefore (others : List Edit) (edit : Edit) : Int :=
  totalGrowth (others.filter (·.before edit))

/-- The edit for a source in which others have been carried out already. -/
def rebase (others : List Edit) (edit : Edit) : Except Failure Edit :=
  ofRange (edit.start + growthBefore others edit) (edit.stop + growthBefore others edit) edit.text

/-- The edit with both ends moved; an end never moves in front of the source. -/
def shift (edit : Edit) (amount : Int) : Edit where
  start := (edit.start + amount).toNat
  stop := (edit.stop + amount).toNat
  text := edit.text
  start_le_stop := by
    have := edit.start_le_stop
    omega

@[simp] theorem shift_zero (edit : Edit) : edit.shift 0 = edit := by
  simp [shift]

theorem shift_shift (edit : Edit) {first second : Int} (inside : 0 ≤ edit.start + first) :
    (edit.shift first).shift second = edit.shift (second + first) := by
  have forward := edit.start_le_stop
  have start : ((edit.start + first).toNat + second).toNat =
      (edit.start + (second + first)).toNat := by omega
  have stop : ((edit.stop + first).toNat + second).toNat =
      (edit.stop + (second + first)).toNat := by omega
  simp only [shift, start, stop]

/-- The edits, each moved by what others change before it. -/
def carried (others edits : List Edit) : List Edit :=
  edits.map fun edit => edit.shift (growthBefore others edit)

theorem rebase_eq_ok {others : List Edit} {edit : Edit}
    (inside : 0 ≤ edit.start + growthBefore others edit) :
    rebase others edit = .ok (edit.shift (growthBefore others edit)) := by
  have forward := edit.start_le_stop
  rw [rebase, ofRange, dif_pos ⟨inside, by omega⟩]
  rfl

theorem overlaps_self (edit : Edit) : edit.overlaps edit = true := by
  have forward := edit.start_le_stop
  simp only [overlaps, and_self]
  split
  · simp
  · simp only [decide_eq_true_eq]
    omega

theorem before_of_precedes {a b : Edit} (h : a.Precedes b) : a.before b = true := by
  obtain ⟨order, apart⟩ := h
  have ha := a.start_le_stop
  have hb := b.start_le_stop
  simp only [before, decide_eq_true_eq]
  simp only [overlaps] at apart
  split at apart <;> simp only [decide_eq_false_iff_not] at apart <;> omega

theorem not_before_of_precedes {a b : Edit} (h : b.Precedes a) : a.before b = false := by
  have order := h.1
  have ha := a.start_le_stop
  have hb := b.start_le_stop
  simp only [before, decide_eq_false_iff_not]
  omega

theorem growthBefore_cons {first edit : Edit} (others : List Edit) (h : first.Precedes edit) :
    growthBefore (first :: others) edit = first.growth + growthBefore others edit := by
  simp [growthBefore, before_of_precedes h]

theorem growthBefore_eq_zero {others : List Edit} {edit : Edit}
    (h : ∀ other ∈ others, edit.Precedes other) : growthBefore others edit = 0 := by
  have none : others.filter (·.before edit) = [] := by
    apply List.filter_eq_nil_iff.2
    intro other ho
    simp [not_before_of_precedes (h other ho)]
  rw [growthBefore, none, totalGrowth_nil]

/-- Edits between two offsets delete no more than what lies between them. -/
theorem le_add_totalGrowth {edits : List Edit} {low high : Nat} (hlh : low ≤ high)
    (hl : ∀ edit ∈ edits, low ≤ edit.start) (hh : ∀ edit ∈ edits, edit.stop ≤ high)
    (ordered : edits.Pairwise Precedes) : (low : Int) ≤ high + totalGrowth edits := by
  induction edits generalizing low with
  | nil =>
      rw [totalGrowth_nil]
      omega
  | cons edit rest ih =>
      obtain ⟨first, ordered⟩ := List.pairwise_cons.1 ordered
      have start := hl edit List.mem_cons_self
      have tail := ih (hh edit List.mem_cons_self) (fun later h => (first later h).1)
        (fun later h => hh later (List.mem_cons_of_mem _ h)) ordered
      rw [totalGrowth_cons, growth]
      omega

theorem le_start_add_growthBefore {others : List Edit} {edit : Edit} {low : Nat}
    (hle : low ≤ edit.start) (hl : ∀ other ∈ others, low ≤ other.start)
    (apart : ∀ other ∈ others, other.overlaps edit = false) (ordered : others.Pairwise Precedes) :
    (low : Int) ≤ edit.start + growthBefore others edit := by
  have earlier : ∀ other ∈ others.filter (·.before edit),
      other ∈ others ∧ other.before edit = true := fun other ho => List.mem_filter.1 ho
  refine le_add_totalGrowth hle (fun other ho => hl other (earlier other ho).1) ?_
    (ordered.sublist List.filter_sublist)
  intro other ho
  obtain ⟨mem, earlier⟩ := earlier other ho
  have order : other.le edit = true := by
    simp only [before, le, decide_eq_true_eq] at earlier ⊢
    omega
  exact (precedes_of_le order (apart other mem)).1

/-- Edits behind an offset do not move in front of it. -/
theorem le_start_of_mem_carried {others edits : List Edit} {low : Nat}
    (start : ∀ edit ∈ edits, (low : Int) ≤ edit.start + growthBefore others edit) :
    ∀ edit ∈ carried others edits, low ≤ edit.start := by
  intro moved hm
  obtain ⟨edit, he, rfl⟩ := List.mem_map.1 hm
  have start := start edit he
  simp only [shift]
  omega

theorem carried_cons {a : Edit} {others edits : List Edit} (first : ∀ edit ∈ edits, a.Precedes edit)
    (inside : ∀ edit ∈ edits, 0 ≤ edit.start + growthBefore others edit) :
    carried (a :: others) edits = (carried others edits).map (·.shift a.growth) := by
  rw [carried, carried, List.map_map]
  refine List.map_congr_left fun edit he => ?_
  rw [growthBefore_cons _ (first edit he), Function.comp_apply, shift_shift _ (inside edit he)]

theorem le_length_spliceAll {edits : List Edit} {bytes : Bytes} {offset : Nat}
    (ho : offset ≤ bytes.length) (hs : ∀ edit ∈ edits, offset ≤ edit.start) :
    offset ≤ (spliceAll edits bytes).length := by
  induction edits with
  | nil => exact ho
  | cons edit rest ih =>
      have start := hs edit List.mem_cons_self
      have tail := ih fun later h => hs later (List.mem_cons_of_mem _ h)
      change offset ≤ (edit.splice (spliceAll rest bytes)).length
      simp only [splice, List.length_append, List.length_take]
      omega

/-- An edit and one behind it can change places when the one behind it is moved. -/
theorem splice_shift {a b : Edit} {bytes : Bytes} (order : a.stop ≤ b.start)
    (fits : a.stop ≤ bytes.length) :
    (b.shift a.growth).splice (a.splice bytes) = a.splice (b.splice bytes) := by
  have ha := a.start_le_stop
  have hb := b.start_le_stop
  have start : (b.shift a.growth).start =
      a.start + (Text.encode a.text).length + (b.start - a.stop) := by
    simp only [shift, growth]
    omega
  have stop : (b.shift a.growth).stop =
      a.start + (Text.encode a.text).length + (b.stop - a.stop) := by
    simp only [shift, growth]
    omega
  have front : (bytes.take a.start ++ Text.encode a.text).length =
      a.start + (Text.encode a.text).length := by
    rw [List.length_append, List.length_take]
    omega
  have room : a.stop ≤ (bytes.take b.start).length := by
    rw [List.length_take]
    omega
  have left : (b.splice bytes).take a.start = bytes.take a.start := by
    rw [splice, List.append_assoc, List.take_append_of_le_length (by omega), List.take_take,
      Nat.min_eq_left (by omega)]
  have right : (b.splice bytes).drop a.stop =
      (bytes.drop a.stop).take (b.start - a.stop) ++ (Text.encode b.text ++ bytes.drop b.stop) := by
    rw [splice, List.append_assoc, List.drop_append_of_le_length room, List.drop_take]
  have head : (a.splice bytes).take (b.shift a.growth).start =
      bytes.take a.start ++ Text.encode a.text ++ (bytes.drop a.stop).take (b.start - a.stop) := by
    rw [splice, start, ← front, List.take_length_add_append]
  have tail : (a.splice bytes).drop (b.shift a.growth).stop = bytes.drop b.stop := by
    rw [splice, stop, ← front, List.drop_length_add_append, List.drop_drop,
      Nat.add_sub_cancel' (by omega)]
  calc (b.shift a.growth).splice (a.splice bytes)
      = (a.splice bytes).take (b.shift a.growth).start ++ Text.encode b.text ++
          (a.splice bytes).drop (b.shift a.growth).stop := rfl
    _ = (b.splice bytes).take a.start ++ Text.encode a.text ++ (b.splice bytes).drop a.stop := by
        simp only [head, tail, left, right, List.append_assoc]
    _ = a.splice (b.splice bytes) := rfl

theorem spliceAll_shift {a : Edit} {edits : List Edit} {bytes : Bytes}
    (order : ∀ edit ∈ edits, a.stop ≤ edit.start) (fits : a.stop ≤ bytes.length) :
    spliceAll (edits.map (·.shift a.growth)) (a.splice bytes) =
      a.splice (spliceAll edits bytes) := by
  induction edits with
  | nil => rfl
  | cons edit rest ih =>
      have behind : ∀ later ∈ rest, a.stop ≤ later.start :=
        fun later h => order later (List.mem_cons_of_mem _ h)
      change (edit.shift a.growth).splice
        (spliceAll (rest.map (·.shift a.growth)) (a.splice bytes)) = _
      rw [ih behind]
      exact splice_shift (order edit List.mem_cons_self) (le_length_spliceAll fits behind)

/-- Of edits that follow each other, some can be carried out first and the others, moved by them,
afterwards. -/
theorem spliceAll_filter (chosen : Edit → Bool) {edits : List Edit} {bytes : Bytes}
    (ordered : edits.Pairwise Precedes) (fits : ∀ edit ∈ edits, edit.stop ≤ bytes.length) :
    spliceAll (carried (edits.filter chosen) (edits.filter (!chosen ·)))
      (spliceAll (edits.filter chosen) bytes) = spliceAll edits bytes := by
  -- The first edit stays the first: either the others are moved past it, or nothing moves it.
  induction edits with
  | nil => rfl
  | cons a rest ih =>
      obtain ⟨first, ordered⟩ := List.pairwise_cons.1 ordered
      have ih := ih ordered fun later h => fits later (List.mem_cons_of_mem _ h)
      have taken : ∀ edit ∈ rest.filter chosen, edit ∈ rest ∧ chosen edit = true :=
        fun edit h => List.mem_filter.1 h
      have left : ∀ edit ∈ rest.filter (!chosen ·), edit ∈ rest ∧ chosen edit = false :=
        fun edit h => by simpa using h
      cases ha : chosen a with
      | false =>
          have unmoved : growthBefore (rest.filter chosen) a = 0 :=
            growthBefore_eq_zero fun later h => first later (taken later h).1
          simp only [List.filter_cons, ha, Bool.not_false, if_true, Bool.false_eq_true, if_false,
            carried, List.map_cons, unmoved, shift_zero]
          exact congrArg a.splice ih
      | true =>
          have behind : ∀ later ∈ rest.filter chosen, a.stop ≤ later.start :=
            fun later h => (first later (taken later h).1).1
          have apart : ∀ edit ∈ rest.filter (!chosen ·), ∀ other ∈ rest.filter chosen,
              other.overlaps edit = false := by
            intro edit he other ho
            obtain ⟨he, no⟩ := left edit he
            obtain ⟨ho, yes⟩ := taken other ho
            refine (Fix.eq_or_apart ⟨rest, ordered⟩ ho he).resolve_left ?_
            rintro rfl
            rw [no] at yes
            cases yes
          have start : ∀ edit ∈ rest.filter (!chosen ·),
              (a.stop : Int) ≤ edit.start + growthBefore (rest.filter chosen) edit :=
            fun edit he => le_start_add_growthBefore (first edit (left edit he).1).1 behind
              (apart edit he) (ordered.sublist List.filter_sublist)
          have moved : carried (a :: rest.filter chosen) (rest.filter (!chosen ·)) =
              (carried (rest.filter chosen) (rest.filter (!chosen ·))).map (·.shift a.growth) :=
            carried_cons (fun edit he => first edit (left edit he).1)
              fun edit he => Int.le_trans (Int.natCast_nonneg _) (start edit he)
          simp only [List.filter_cons, ha, Bool.not_true, Bool.false_eq_true, if_false, if_true,
            moved]
          calc spliceAll _ (a.splice (spliceAll (rest.filter chosen) bytes))
              = a.splice (spliceAll _ (spliceAll (rest.filter chosen) bytes)) :=
                spliceAll_shift (le_start_of_mem_carried start)
                  (le_length_spliceAll (fits a List.mem_cons_self) behind)
            _ = a.splice (spliceAll rest bytes) := congrArg a.splice ih

end Edit

namespace Fix

variable {f g : Fix}

theorem rebase_edits (apart : f.conflictsWith g = false) :
    g.edits.mapM (Edit.rebase f.edits) = .ok (Edit.carried f.edits g.edits) := by
  rw [mapM_eq_ok, Edit.carried, List.map_map]
  refine List.map_congr_left fun edit he => Edit.rebase_eq_ok ?_
  exact Edit.le_start_add_growthBefore (Nat.zero_le _) (fun _ _ => Nat.zero_le _)
    (fun other ho => overlaps_eq_false apart ho he) f.ordered

/-- What two fixes do together is what the second does after the first. -/
theorem apply_eq_spliceAll_carried {merged : Fix} {source : Bytes}
    (perm : merged.edits.Perm (f.edits ++ g.edits)) (apart : f.conflictsWith g = false)
    (fits : ∀ edit ∈ merged.edits, edit.stop ≤ source.length) :
    merged.apply source = Edit.spliceAll (Edit.carried f.edits g.edits) (f.apply source) := by
  let mine (edit : Edit) : Bool := edit ∈ f.edits
  have inF : f.edits.filter (!mine ·) = [] ∧ f.edits.filter mine = f.edits := by simp [mine]
  have outside : ∀ edit ∈ g.edits, edit ∉ f.edits := by
    intro edit hg hf
    have := overlaps_eq_false apart hf hg
    rw [Edit.overlaps_self] at this
    cases this
  have inG : g.edits.filter (!mine ·) = g.edits ∧ g.edits.filter mine = [] := by
    simpa [mine] using outside
  have chosen : merged.edits.filter mine = f.edits := by
    refine edits_eq_of_perm (merged.ordered.sublist List.filter_sublist) ?_
    simpa only [List.filter_append, inF.2, inG.2, List.append_nil] using perm.filter mine
  have left : merged.edits.filter (!mine ·) = g.edits := by
    refine edits_eq_of_perm (merged.ordered.sublist List.filter_sublist) ?_
    simpa only [List.filter_append, inF.1, inG.1, List.nil_append] using perm.filter (!mine ·)
  have before : f.apply source = Edit.spliceAll f.edits source :=
    apply_eq_spliceAll f source fun edit he =>
      fits edit (perm.mem_iff.2 (List.mem_append_left _ he))
  have split := Edit.spliceAll_filter mine merged.ordered fits
  rw [chosen, left] at split
  rw [before, split, apply_eq_spliceAll merged source fits]

/-- Two fixes that do not conflict make up one fix, and it does not matter which of them is carried
out first: the edits of the other, moved by those that come before them, then give the same. -/
theorem merged_apply_eq_either_order (f g : Fix) (source : Bytes)
    (apart : f.conflictsWith g = false)
    (fits : ∀ edit ∈ f.edits ++ g.edits, edit.stop ≤ source.length) :
    ∃ merged fs gs, ofEdits (f.edits ++ g.edits) = .ok merged ∧
      g.edits.mapM (Edit.rebase f.edits) = .ok gs ∧ f.edits.mapM (Edit.rebase g.edits) = .ok fs ∧
      merged.apply source = Edit.spliceAll gs (f.apply source) ∧
      merged.apply source = Edit.spliceAll fs (g.apply source) := by
  obtain ⟨merged, accepted, perm⟩ := exists_ofEdits (disjoint_append apart)
  have back : g.conflictsWith f = false := conflictsWith_comm f g ▸ apart
  have fits : ∀ edit ∈ merged.edits, edit.stop ≤ source.length :=
    fun edit he => fits edit (perm.mem_iff.1 he)
  exact ⟨merged, _, _, accepted, rebase_edits apart, rebase_edits back,
    apply_eq_spliceAll_carried perm apart fits,
    apply_eq_spliceAll_carried (perm.trans List.perm_append_comm) back fits⟩

def framing : Fix :=
  ⟨[.insert 2 "ab", ⟨⟨4, 6⟩, "", by decide⟩], by unfold Edit.Precedes; decide⟩

/-- Its edits touch those of `framing` at every end. -/
def framed : Fix :=
  ⟨[⟨⟨2, 4⟩, "é!", by decide⟩, .insert 6 "z"], by unfold Edit.Precedes; decide⟩

theorem merged_apply_eq_either_order_touching :
    framing.conflictsWith framed = false ∧
    (∀ edit ∈ framing.edits ++ framed.edits, edit.stop ≤ (Text.encode "01234567").length) ∧
    ∃ merged, ofEdits (framing.edits ++ framed.edits) = .ok merged ∧
      merged.apply (Text.encode "01234567") = Text.encode "01abé!z67" ∧
      Edit.spliceAll [⟨⟨4, 6⟩, "é!", by decide⟩, .insert 6 "z"]
        (framing.apply (Text.encode "01234567")) = Text.encode "01abé!z67" ∧
      Edit.spliceAll [.insert 2 "ab", ⟨⟨5, 7⟩, "", by decide⟩]
        (framed.apply (Text.encode "01234567")) = Text.encode "01abé!z67" := by
  have apart : framing.conflictsWith framed = false := by decide
  have fits : ∀ edit ∈ framing.edits ++ framed.edits,
      edit.stop ≤ (Text.encode "01234567").length := by decide
  obtain ⟨merged, fs, gs, accepted, hg, -, first, -⟩ :=
    merged_apply_eq_either_order framing framed (Text.encode "01234567") apart fits
  rw [rebase_edits apart, Except.ok.injEq] at hg
  refine ⟨apart, fits, merged, accepted, ?_, by decide, by decide⟩
  rw [first, ← hg]
  decide

end Fix
end JsxLint
