import ArchDoc.Proofs.SkippedMembers

/-!
# What the watch lets pass

While a record is read from a text, the machine is watched: the reading ends at the first state that
shows a mismatch. What is watched is never the value as a whole, so two things have to be shown. A
state that shows a mismatch leads to no record, since a state only leads to values that go on from
what it shows. And a text that passes spells a record, since at every time all items and members
that are complete have passed.

Main definitions:

* `IsRecord`: the values that are records, as a value.
* `Passes`: the states that show no mismatch.
* `Checked`: the states in which everything that is complete has passed.

Results:

* `passes_of_mayGive`: a state that leads to a record shows no mismatch.
* `Checked.step`: one character under the watch.
* `read_of_skim`: records are read, and nothing else is.
-/

namespace ArchDoc.RecordReader

open Reader

variable {fields : List Field}

/-! ## Records as values -/

section

variable (fields)

/-- Every item is what the column in its place holds. -/
def ItemsFit (items : List Json) : Prop :=
  ∀ (i : Nat) (field : Field) (v : Json), fields[i]? = some field → items[i]? = some v →
    field.scalar.accepts v = true

/-- Every member that is a column is what it holds, and no column is there twice. -/
structure MembersFit (members : List (String × Json)) : Prop where
  fit : ∀ m ∈ members, ∀ field, field? fields m.1 = some field → field.scalar.accepts m.2 = true
  distinct : ((knownMembers fields members).map Prod.fst).Nodup

/-- The values that are records of scalar columns: the first columns in order, or members of which
some are columns. -/
inductive IsRecord : Json → Prop where
  | array {items : List Json} (hlength : items.length ≤ fields.length)
      (h : ItemsFit fields items) : IsRecord (.arr items)
  | object {members : List (String × Json)} (h : MembersFit fields members) :
      IsRecord (.obj members)

end

theorem accepts_of_isCompound {v : Json} (h : isCompound v = true) (scalar : Scalar) :
    scalar.accepts v = false := by
  cases v with
  | arr items => cases scalar <;> rfl
  | obj members => cases scalar <;> rfl
  | null | bool _ | int _ | real _ | str _ => exact nomatch h

theorem mem_knownMembers {members : List (String × Json)} {m : String × Json} :
    m ∈ knownMembers fields members ↔ m ∈ members ∧ (field? fields m.1).isSome = true :=
  List.mem_filter

theorem knownMembers_append (members members' : List (String × Json)) :
    knownMembers fields (members ++ members') =
      knownMembers fields members ++ knownMembers fields members' :=
  List.filter_append ..

theorem membersFit_reverse {members : List (String × Json)} :
    MembersFit fields members.reverse ↔ MembersFit fields members := by
  have hperm : ((knownMembers fields members.reverse).map Prod.fst).Perm
      ((knownMembers fields members).map Prod.fst) := by
    unfold knownMembers
    rw [List.filter_reverse]
    exact (List.reverse_perm _).map _
  constructor
  · rintro ⟨hfit, hdistinct⟩
    exact ⟨fun m hm => hfit m (List.mem_reverse.mpr hm), hperm.nodup_iff.mp hdistinct⟩
  · rintro ⟨hfit, hdistinct⟩
    exact ⟨fun m hm => hfit m (List.mem_reverse.mp hm), hperm.nodup_iff.mpr hdistinct⟩

theorem membersFit_nil : MembersFit fields [] where
  fit _ hm := absurd hm List.not_mem_nil
  distinct := List.nodup_nil

/-- One more member. -/
theorem MembersFit.cons {members : List (String × Json)} (h : MembersFit fields members)
    {name : String} {v : Json}
    (hnew : (field? fields name).isSome = true → name ∉ members.map Prod.fst)
    (hv : ∀ field, field? fields name = some field → field.scalar.accepts v = true) :
    MembersFit fields ((name, v) :: members) where
  fit := by
    rintro m hm field hfield
    rcases List.mem_cons.mp hm with rfl | hold
    · exact hv field hfield
    · exact h.fit m hold field hfield
  distinct := by
    unfold knownMembers
    rw [List.filter_cons]
    split_ifs with hname
    · refine List.nodup_cons.mpr ⟨fun hmem => ?_, h.distinct⟩
      obtain ⟨m, hm, hsame⟩ := List.mem_map.mp hmem
      exact hnew hname (List.mem_map.mpr ⟨m, (mem_knownMembers.mp hm).1, hsame⟩)
    · exact h.distinct

/-- One more item, behind the others. -/
theorem ItemsFit.concat {before : List Json} (h : ItemsFit fields before.reverse) {v : Json}
    (hv : ∀ field, fields[before.length]? = some field → field.scalar.accepts v = true) :
    ItemsFit fields (v :: before).reverse := by
  intro i field w hfield hw
  rw [List.reverse_cons, List.getElem?_append, List.length_reverse] at hw
  split_ifs at hw with hi
  · exact h i field w hfield hw
  · obtain ⟨hlast, rfl⟩ : i - before.length = 0 ∧ v = w := by
      rw [List.getElem?_singleton] at hw
      split_ifs at hw with hzero
      exact ⟨hzero, Option.some.inj hw⟩
    obtain rfl : i = before.length := by omega
    exact hv field hfield

/-! ## What is watched -/

section

variable (fields)

/-- A state shows no mismatch. -/
def Passes : State → Prop
  | ⟨.done v, []⟩ => isCompound v = true
  | ⟨.firstItem, [frame]⟩ | ⟨.firstName, [frame]⟩ => mayNest fields frame = true
  | ⟨.colon members name, []⟩ =>
    (field? fields name).isSome = true → name ∉ members.map Prod.fst
  | ⟨.afterItem (v :: before), []⟩ =>
    ∀ field, fields[before.length]? = some field → field.scalar.accepts v = true
  | ⟨.afterMember ((name, v) :: _), []⟩ =>
    ∀ field, field? fields name = some field → field.scalar.accepts v = true
  | _ => True

end

theorem watch_eq_ok_iff {s : State} : watch fields s = .ok () ↔ Passes fields s := by
  obtain ⟨phase, around⟩ := s
  unfold watch
  rcases phase with _ | _ | (_ | ⟨v, before⟩) | _ | _ | _ | ⟨members, name⟩ |
    (_ | ⟨⟨name, v⟩, before⟩) | _ | _ | _ | v <;> rcases around with _ | ⟨frame, _ | ⟨_, _⟩⟩ <;>
    simp [Passes]
  · cases fields[before.length]? <;> simp
  · cases field? fields name <;> simp
  · cases field? fields name <;> simp

/-! ## States that lead to a record -/

theorem IsRecord.isCompound {v : Json} (h : IsRecord fields v) :
    RecordReader.isCompound v = true := by
  cases h <;> rfl

/-- The item behind others is what the column in its place holds. -/
theorem IsRecord.accepts_item {before after : List Json} {v : Json}
    (h : IsRecord fields (.arr (before.reverse ++ v :: after))) {field : Field}
    (hfield : fields[before.length]? = some field) : field.scalar.accepts v = true := by
  cases h with
  | array hlength hfit => exact hfit before.length field v hfield (by simp)

theorem IsRecord.length_lt {before after : List Json} {v : Json}
    (h : IsRecord fields (.arr (before.reverse ++ v :: after))) :
    before.length < fields.length := by
  cases h with
  | array hlength hfit =>
    rw [List.length_append, List.length_reverse, List.length_cons] at hlength
    omega

theorem IsRecord.accepts_member {before after : List (String × Json)} {name : String} {v : Json}
    (h : IsRecord fields (.obj (before.reverse ++ (name, v) :: after))) {field : Field}
    (hfield : field? fields name = some field) : field.scalar.accepts v = true := by
  cases h with
  | object hfit =>
    exact hfit.fit (name, v) (List.mem_append_right _ List.mem_cons_self) field hfield

theorem IsRecord.not_mem_before {before after : List (String × Json)} {name : String} {v : Json}
    (h : IsRecord fields (.obj (before.reverse ++ (name, v) :: after)))
    (hname : (field? fields name).isSome = true) : name ∉ before.map Prod.fst := by
  cases h with
  | object hfit =>
    intro hmem
    obtain ⟨m, hm, hsame⟩ := List.mem_map.mp hmem
    have hdistinct := hfit.distinct
    rw [knownMembers_append, List.map_append, List.nodup_append] at hdistinct
    refine hdistinct.2.2 name ?_ name ?_ rfl
    · exact List.mem_map.mpr
        ⟨m, mem_knownMembers.mpr ⟨List.mem_reverse.mpr hm, hsame ▸ hname⟩, hsame⟩
    · exact List.mem_map.mpr
        ⟨(name, v), mem_knownMembers.mpr ⟨List.mem_cons_self, hname⟩, rfl⟩

/-- No column of a record is an array or an object. -/
theorem IsRecord.mayNest {v part : Json} (h : IsRecord fields v)
    (hpart : RecordReader.isCompound part = true) {frame : Frame} (hframe : frame.Holds part v) :
    RecordReader.mayNest fields frame = true := by
  cases frame with
  | array before =>
    obtain ⟨after, rfl⟩ := hframe
    obtain ⟨field, hfield⟩ : ∃ field, fields[before.length]? = some field :=
      ⟨_, List.getElem?_eq_getElem h.length_lt⟩
    have haccepts := h.accepts_item hfield
    rw [accepts_of_isCompound hpart] at haccepts
    exact nomatch haccepts
  | object before name =>
    obtain ⟨after, rfl⟩ := hframe
    unfold RecordReader.mayNest
    dsimp only
    cases hfield : field? fields name with
    | none => rfl
    | some field =>
      have haccepts := h.accepts_member hfield
      rw [accepts_of_isCompound hpart] at haccepts
      exact nomatch haccepts

/-- A state that leads to a record shows no mismatch. -/
theorem passes_of_mayGive {s : State} {v : Json} (hs : s.MayGive v) (hv : IsRecord fields v) :
    Passes fields s := by
  obtain ⟨part, hpart, hwhole⟩ := hs
  unfold Passes
  split
  · obtain rfl : part = v := hwhole
    obtain rfl := hpart
    exact hv.isCompound
  · obtain ⟨items, rfl⟩ := hpart
    obtain ⟨inner, hframe, rfl⟩ := hwhole
    exact hv.mayNest rfl hframe
  · obtain ⟨members, rfl⟩ := hpart
    obtain ⟨inner, hframe, rfl⟩ := hwhole
    exact hv.mayNest rfl hframe
  · obtain rfl : part = v := hwhole
    obtain ⟨w, after, rfl⟩ := hpart
    exact hv.not_mem_before
  · obtain rfl : part = v := hwhole
    obtain ⟨after, rfl⟩ := hpart
    rw [List.reverse_cons, List.append_assoc, List.singleton_append] at hv
    exact fun field => hv.accepts_item
  · obtain rfl : part = v := hwhole
    obtain ⟨after, rfl⟩ := hpart
    rw [List.reverse_cons, List.append_assoc, List.singleton_append] at hv
    exact fun field => hv.accepts_member
  · trivial

/-- A comma that leads to a record comes before its last column. -/
theorem checkComma_of_mayGive {s t : State} {c : Char} {keep : Bool}
    (h : advance keep s c = .ok t) {v : Json} (ht : t.MayGive v) (hv : IsRecord fields v) :
    checkComma fields s c = .ok () := by
  obtain ⟨phase, around⟩ := s
  unfold checkComma
  dsimp only
  split
  · split_ifs with hcomma
    · obtain ⟨rfl, hlength⟩ := hcomma
      obtain ⟨m, hm, rfl⟩ := advance_eq_ok_iff.mp h
      cases hm with
      | space _ hspace => exact absurd hspace (by decide)
      | lastItem hc => exact absurd hc (by decide)
      | nextItem _ =>
        obtain ⟨part, _, inner, ⟨after, rfl⟩, rfl⟩ := ht
        have := hv.length_lt
        omega
    · rfl
  · rfl

theorem mayGive_of_foldlM {s t : State} {cs : List Char}
    (h : cs.foldlM (skimStep fields) s = .ok t) {v : Json} (ht : t.MayGive v) : s.MayGive v := by
  induction cs generalizing s with
  | nil =>
    obtain rfl := Except.ok.inj h
    exact ht
  | cons c cs ih =>
    rw [List.foldlM_cons] at h
    obtain ⟨u, hstep, hrest⟩ := bind_eq_ok h
    obtain ⟨settled, hsettle, hadvance⟩ := bind_eq_ok hstep
    exact mayGive_of_settle hsettle (mayGive_of_advance hadvance (ih hrest))

/-- What leads to a record is read under the watch as it is without. -/
theorem step_of_mayGive {s t : State} {c : Char} (h : skimStep fields s c = .ok t) {v : Json}
    (ht : t.MayGive v) (hv : IsRecord fields v) : step fields s c = .ok t := by
  obtain ⟨settled, hsettle, hadvance⟩ := bind_eq_ok h
  have hsettled := watch_eq_ok_iff.mpr (passes_of_mayGive (mayGive_of_advance hadvance ht) hv)
  have hcomma := checkComma_of_mayGive hadvance ht hv
  have hnext := watch_eq_ok_iff.mpr (passes_of_mayGive ht hv)
  simp only [step, hsettle, hsettled, hcomma, hadvance, hnext, bind, Except.bind]
  rfl

theorem foldlM_of_mayGive {s t : State} {cs : List Char}
    (h : cs.foldlM (skimStep fields) s = .ok t) {v : Json} (ht : t.MayGive v)
    (hv : IsRecord fields v) : cs.foldlM (step fields) s = .ok t := by
  induction cs generalizing s with
  | nil => exact h
  | cons c cs ih =>
    rw [List.foldlM_cons] at h ⊢
    obtain ⟨u, hstep, hrest⟩ := bind_eq_ok h
    rw [step_of_mayGive hstep (mayGive_of_foldlM hrest ht) hv]
    exact ih hrest

/-! ## States that are reached under the watch -/

section

variable (fields)

/-- What is complete inside the outermost frame has passed. -/
def FrameChecked : Frame → Prop
  | .array before => before.length < fields.length ∧ ItemsFit fields before.reverse
  | .object before name =>
    MembersFit fields before ∧ ((field? fields name).isSome = true → name ∉ before.map Prod.fst)

/-- What is complete outside all frames has passed. -/
def PhaseChecked : Phase → Prop
  | .value | .firstItem | .firstName | .text _ _ | .number _ _ => True
  | .afterItem items => items.length ≤ fields.length ∧ ItemsFit fields items.reverse
  | .nextName members | .name members _ _ | .afterMember members => MembersFit fields members
  | .colon members n =>
    MembersFit fields members ∧ ((field? fields n).isSome = true → n ∉ members.map Prod.fst)
  | .word _ v => isCompound v = false
  | .done v => isCompound v = true → IsRecord fields v

/-- Everything that is complete has passed. -/
structure Checked (s : State) : Prop where
  phase : s.around = [] → PhaseChecked fields s.phase
  frame : ∀ frame ∈ s.around.getLast?, FrameChecked fields frame

end

theorem checked_start : Checked fields start where
  phase _ := trivial
  frame _ h := nomatch h

theorem checked_top {phase : Phase} (h : PhaseChecked fields phase) :
    Checked fields ⟨phase, []⟩ where
  phase _ := h
  frame _ hframe := nomatch hframe

theorem checked_inside {phase : Phase} (inner : List Frame) {frame : Frame}
    (h : FrameChecked fields frame) : Checked fields ⟨phase, inner ++ [frame]⟩ where
  phase hnil := by simp at hnil
  frame other hother := by
    rw [List.getLast?_concat] at hother
    exact Option.some.inj hother ▸ h

theorem itemsFit_nil : ItemsFit fields [] :=
  fun _ _ _ _ h => nomatch h

/-- A value that passes when it is complete inside the outermost frame has been checked. -/
theorem checked_complete {frame : Frame} (h : FrameChecked fields frame) {v : Json}
    (hpasses : Passes fields (complete v [frame])) : Checked fields (complete v [frame]) := by
  cases frame with
  | array before => exact checked_top ⟨h.1, h.2.concat hpasses⟩
  | object before name => exact checked_top (h.1.cons h.2 hpasses)

/-- Inside the outermost frame, whatever is read, nothing but what is complete in it matters. -/
theorem checked_apply_inside {frame : Frame} (h : FrameChecked fields frame) (inner : List Frame)
    {m : Move} (hpasses : Passes fields (m.apply (inner ++ [frame]))) :
    Checked fields (m.apply (inner ++ [frame])) := by
  cases m with
  | stay phase => exact checked_inside _ h
  | enter phase next => exact checked_inside (next :: inner) h
  | leave v =>
    cases inner with
    | nil => exact checked_complete h hpasses
    | cons next inner => cases next <;> exact checked_inside _ h

theorem isCompound_of_numberValue {keep : Bool} {n : Numeral} {v : Json}
    (h : numberValue keep n = .ok v) : isCompound v = false := by
  unfold numberValue Numeral.toJson? at h
  split at h
  · next w hw =>
    obtain rfl := Except.ok.inj h
    split at hw
    · obtain rfl := Option.some.inj hw
      rfl
    · split_ifs at hw
      obtain rfl := Option.some.inj hw
      rfl
  · split_ifs at h
    obtain rfl := Except.ok.inj h
    rfl

theorem length_lt_of_checkComma {items : List Json}
    (h : checkComma fields ⟨.afterItem items, []⟩ ',' = .ok ()) : items.length < fields.length := by
  unfold checkComma at h
  dsimp only at h
  split_ifs at h with hcomma
  simpa using hcomma

/-- Outside all frames, one character completes no item and no member, and may end the record. -/
theorem checked_turn_at_top {keep : Bool} {depth : Nat} {c : Char} {phase : Phase} {m : Move}
    (hfields : fields ≠ []) (h : Turns keep depth c phase m) (hphase : PhaseChecked fields phase)
    (hcomma : checkComma fields ⟨phase, []⟩ c = .ok ()) (hpasses : Passes fields (m.apply [])) :
    Checked fields (m.apply []) := by
  cases h with
  | space _ _ => exact checked_top hphase
  | value _ h =>
    refine checked_top ?_
    cases h with
    | null | yes | no => rfl
    | text | array _ | object _ | minus | digit _ => trivial
  | noItem _ => exact checked_top fun _ => .array (Nat.zero_le _) itemsFit_nil
  | firstItem _ _ _ =>
    exact checked_inside [] ⟨List.length_pos_iff.mpr hfields, itemsFit_nil⟩
  | nextItem hc =>
    subst hc
    exact checked_inside [] ⟨length_lt_of_checkComma hcomma, hphase.2⟩
  | lastItem _ =>
    refine checked_top fun _ => .array ?_ hphase.2
    rw [List.length_reverse]
    exact hphase.1
  | firstName _ => exact checked_top membersFit_nil
  | noMember _ => exact checked_top fun _ => .object membersFit_nil
  | nextName _ | inName _ | nextMember _ => exact checked_top hphase
  | endName _ => exact checked_top ⟨hphase, hpasses⟩
  | colon _ => exact checked_inside [] hphase
  | lastMember _ => exact checked_top fun _ => .object (membersFit_reverse.mpr hphase)
  | inText _ | inNumber _ => exact checked_top trivial
  | endText _ => exact checked_top nofun
  | inWord _ => exact checked_top hphase
  | endWord =>
    refine checked_top fun hcompound => ?_
    have hscalar : isCompound _ = false := hphase
    rw [hscalar] at hcompound
    exact nomatch hcompound

theorem checked_settling_at_top {keep : Bool} {next : Option Char} {phase : Phase} {m : Move}
    (h : Settles keep next phase m) (hphase : PhaseChecked fields phase) :
    Checked fields (m.apply []) := by
  cases h with
  | ready _ | goesOn _ => exact checked_top hphase
  | ends _ _ hv =>
    refine checked_top fun hcompound => ?_
    rw [isCompound_of_numberValue hv] at hcompound
    exact nomatch hcompound

theorem Checked.advance {keep : Bool} {c : Char} {s t : State} (hfields : fields ≠ [])
    (h : Checked fields s) (hs : advance keep s c = .ok t)
    (hcomma : checkComma fields s c = .ok ()) (hpasses : Passes fields t) : Checked fields t := by
  obtain ⟨phase, around⟩ := s
  obtain ⟨m, hm, rfl⟩ := advance_eq_ok_iff.mp hs
  rcases List.eq_nil_or_concat' around with rfl | ⟨inner, frame, rfl⟩
  · exact checked_turn_at_top hfields hm (h.phase rfl) hcomma hpasses
  · exact checked_apply_inside (h.frame frame List.getLast?_concat) inner hpasses

theorem Checked.settle {keep : Bool} {next : Option Char} {s t : State} (h : Checked fields s)
    (hs : settle keep s next = .ok t) (hpasses : Passes fields t) : Checked fields t := by
  obtain ⟨phase, around⟩ := s
  obtain ⟨m, hm, rfl⟩ := settle_eq_ok_iff.mp hs
  rcases List.eq_nil_or_concat' around with rfl | ⟨inner, frame, rfl⟩
  · exact checked_settling_at_top hm (h.phase rfl)
  · exact checked_apply_inside (h.frame frame List.getLast?_concat) inner hpasses

/-- One character under the watch is read as it is without, and what it completes has passed. -/
theorem Checked.step {c : Char} {s t : State} (hfields : fields ≠ []) (h : Checked fields s)
    (hs : step fields s c = .ok t) : skimStep fields s c = .ok t ∧ Checked fields t := by
  obtain ⟨settled, hsettle, hs⟩ := bind_eq_ok hs
  obtain ⟨_, hsettled, hs⟩ := bind_eq_ok hs
  obtain ⟨_, hcomma, hs⟩ := bind_eq_ok hs
  obtain ⟨next, hadvance, hs⟩ := bind_eq_ok hs
  obtain ⟨_, hnext, hs⟩ := bind_eq_ok hs
  obtain rfl := Except.ok.inj hs
  constructor
  · rw [skimStep, hsettle]
    exact hadvance
  · exact (h.settle hsettle (watch_eq_ok_iff.mp hsettled)).advance hfields hadvance hcomma
      (watch_eq_ok_iff.mp hnext)

theorem Checked.foldlM {cs : List Char} {s t : State} (hfields : fields ≠ [])
    (h : Checked fields s) (hs : cs.foldlM (RecordReader.step fields) s = .ok t) :
    cs.foldlM (skimStep fields) s = .ok t ∧ Checked fields t := by
  induction cs generalizing s with
  | nil =>
    obtain rfl := Except.ok.inj hs
    exact ⟨rfl, h⟩
  | cons c cs ih =>
    rw [List.foldlM_cons] at hs ⊢
    obtain ⟨u, hstep, hrest⟩ := bind_eq_ok hs
    obtain ⟨hskim, hchecked⟩ := h.step hfields hstep
    rw [hskim]
    exact ih hchecked hrest

/-! ## Texts -/

/-- A text is skimmed character by character, and its value is complete when it ends. -/
theorem skim_eq_ok {text : String} {v : Json} (h : skim fields text = .ok v) :
    ∃ s, text.toList.foldlM (skimStep fields) start = .ok s ∧
      settle (keeps fields s) s none = .ok ⟨.done v, []⟩ := by
  obtain ⟨s, hread, hfinish⟩ := bind_eq_ok h
  obtain ⟨settled, hsettle, hresult⟩ := bind_eq_ok hfinish
  obtain rfl := result_eq_ok hresult
  exact ⟨s, hread, hsettle⟩

theorem read_of_isRecord {text : String} {v : Json} (h : skim fields text = .ok v)
    (hv : IsRecord fields v) : read fields text = .ok v := by
  obtain ⟨s, hskim, hsettle⟩ := skim_eq_ok h
  have hend : State.MayGive ⟨.done v, []⟩ v := ⟨v, rfl, rfl⟩
  have hpasses := watch_eq_ok_iff.mpr (passes_of_mayGive hend hv)
  rw [read, foldlM_of_mayGive hskim (mayGive_of_settle hsettle hend) hv]
  simp only [finish, hsettle, hpasses, bind, Except.bind]
  rfl

theorem isRecord_of_read {text : String} {v w : Json} (hfields : fields ≠ [])
    (h : skim fields text = .ok v) (hread : read fields text = .ok w) : IsRecord fields v := by
  obtain ⟨s, hskim, hend⟩ := skim_eq_ok h
  obtain ⟨t, hsteps, hfinish⟩ := bind_eq_ok hread
  obtain ⟨hskim', hchecked⟩ := checked_start.foldlM hfields hsteps
  obtain rfl := Except.ok.inj (hskim.symm.trans hskim')
  obtain ⟨settled, hsettle, hwatch⟩ := bind_eq_ok hfinish
  obtain ⟨_, hpasses, _⟩ := bind_eq_ok hwatch
  obtain rfl := Except.ok.inj (hend.symm.trans hsettle)
  have hpasses := watch_eq_ok_iff.mp hpasses
  exact (hchecked.settle hsettle hpasses).phase rfl hpasses

/-- **Main theorem.** Of the texts that can be read with members skipped, those that spell records
are read as what they spell, and all others are refused. -/
theorem read_of_skim {text : String} {v : Json} (hfields : fields ≠ [])
    (h : skim fields text = .ok v) :
    (IsRecord fields v → read fields text = .ok v) ∧
      (¬ IsRecord fields v → ∃ fault, read fields text = .error fault) := by
  refine ⟨read_of_isRecord h, fun hv => ?_⟩
  cases hread : read fields text with
  | error fault => exact ⟨fault, rfl⟩
  | ok w => exact absurd (isRecord_of_read hfields h hread) hv

end ArchDoc.RecordReader
