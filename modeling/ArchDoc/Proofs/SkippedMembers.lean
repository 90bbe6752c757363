import ArchDoc.Json.RecordReader
import ArchDoc.Proofs.ReaderMoves
import Mathlib.Data.List.Forall2

/-!
# Members that are skipped

A record is read from a text by the machine that reads any JSON text, except that what stands under
a name that is no column is only skipped: it has to follow the grammar, and what it spells is lost.
Beside the reading of the whole text, skipping goes through the same phases, with other contents.
So a text that can be read in full is also read with members skipped, and the two values differ in
nothing but these members.

Main definitions:

* `Reader.Phase.Follows`: the phases of skipping, beside those of reading in full.
* `RecordReader.skim`: the value of a text with members skipped.
* `RecordReader.Alike`: the states of both readings of a text.

Results:

* `Reader.Turns.follows`, `Reader.Settles.follows`: whatever is read in full can be skipped.
* `RecordReader.skim_of_parse`: the value with members skipped.
-/

namespace ArchDoc

namespace Reader

/-! ## Skipping follows reading -/

/-- Where a text in quotes stands while it is skipped: surrogates count for nothing. -/
def Quote.skipped : Quote → Quote
  | .plain => .plain
  | .escape => .escape
  | .hex _ digits => .hex none digits
  | .lead _ => .plain
  | .leadEscape _ => .escape

/-- The phases that skipping is in while reading in full is in a phase. -/
inductive Phase.Follows : Phase → Phase → Prop where
  | value : Follows .value .value
  | firstItem : Follows .firstItem .firstItem
  | afterItem {items items' : List Json} : Follows (.afterItem items) (.afterItem items')
  | firstName : Follows .firstName .firstName
  | nextName {members members' : List (String × Json)} :
      Follows (.nextName members) (.nextName members')
  | name {members members' : List (String × Json)} {out out' : List Char} (place : Quote) :
      Follows (.name members out place) (.name members' out' place.skipped)
  | colon {members members' : List (String × Json)} {n n' : String} :
      Follows (.colon members n) (.colon members' n')
  | afterMember {members members' : List (String × Json)} :
      Follows (.afterMember members) (.afterMember members')
  | text {out out' : List Char} (place : Quote) :
      Follows (.text out place) (.text out' place.skipped)
  | word {left : List Char} {v v' : Json} : Follows (.word left v) (.word left v')
  | number {stage : NumberStage} {n n' : Numeral} :
      Follows (.number stage n) (.number stage n')
  | done {v v' : Json} : Follows (.done v) (.done v')

/-- Frames of one kind, whatever they hold. -/
inductive Frame.SameKind : Frame → Frame → Prop where
  | array {before before' : List Json} : SameKind (.array before) (.array before')
  | object {before before' : List (String × Json)} {name name' : String} :
      SameKind (.object before name) (.object before' name')

/-- The moves of skipping beside those of reading in full. -/
inductive Move.Follows : Move → Move → Prop where
  | stay {phase phase' : Phase} (h : phase.Follows phase') : Follows (.stay phase) (.stay phase')
  | enter {phase phase' : Phase} {frame frame' : Frame} (h : phase.Follows phase')
      (hframe : frame.SameKind frame') : Follows (.enter phase frame) (.enter phase' frame')
  | leave {v v' : Json} : Follows (.leave v) (.leave v')

variable {c : Char} {depth : Nat} {next : Option Char}

/-- A unit leads back between characters, or to a surrogate, which counts for nothing. -/
theorem skipped_of_takeUnit {out : List Char} {lead : Option Nat} {unit : Nat}
    {read : List Char × Quote} (h : takeUnit true out lead unit = .ok read) :
    read.2.skipped = .plain := by
  unfold takeUnit at h
  simp only [Bool.not_true, Bool.false_eq_true, if_false] at h
  cases lead with
  | none =>
    dsimp only at h
    split_ifs at h <;> cases h <;> rfl
  | some first =>
    dsimp only at h
    split_ifs at h
    cases h
    rfl

/-- A character of a text can be skipped where it can be read. -/
theorem quoteStep_skipped {out : List Char} {place : Quote} {r : Option (List Char × Quote)}
    (h : quoteStep true out place c = .ok r) (skippedOut : List Char) :
    ∃ out', quoteStep false skippedOut place.skipped c =
      .ok (r.map fun read => (out', read.2.skipped)) := by
  unfold quoteStep at h ⊢
  cases place with
  | plain =>
    dsimp only [Quote.skipped] at h ⊢
    split_ifs at h ⊢
    · cases h
      exact ⟨[], rfl⟩
    · cases h
      exact ⟨_, rfl⟩
    · cases h
      exact ⟨_, rfl⟩
  | escape =>
    dsimp only [Quote.skipped] at h ⊢
    split_ifs at h ⊢
    · cases h
      exact ⟨_, rfl⟩
    · cases hescaped : escaped? c with
      | none =>
        rw [hescaped] at h
        exact nomatch h
      | some d =>
        rw [hescaped] at h
        cases h
        exact ⟨_, rfl⟩
  | hex lead digits =>
    dsimp only [Quote.skipped] at h ⊢
    split_ifs at h ⊢
    · cases h
      exact ⟨_, rfl⟩
    · cases hunit : hexUnit? (c :: digits).reverse with
      | none =>
        rw [hunit] at h
        exact nomatch h
      | some unit =>
        rw [hunit] at h
        dsimp only at h ⊢
        cases hread : takeUnit true out lead unit with
        | error e =>
          rw [hread] at h
          exact nomatch h
        | ok read =>
          rw [hread] at h
          cases h
          exact ⟨skippedOut, congrArg (fun place => Except.ok (some (skippedOut, place)))
            (skipped_of_takeUnit hread).symm⟩
  | lead unit =>
    dsimp only [Quote.skipped] at h ⊢
    split_ifs at h with hbackslash
    cases h
    subst hbackslash
    exact ⟨_, rfl⟩
  | leadEscape unit =>
    dsimp only [Quote.skipped] at h ⊢
    split_ifs at h with hu
    cases h
    subst hu
    exact ⟨_, rfl⟩

/-- Whether a character continues a number does not depend on the digits so far. -/
theorem numberStep_stage (stage : NumberStage) (n n' : Numeral) (c : Char) :
    (numberStep stage n c).map Prod.fst = (numberStep stage n' c).map Prod.fst := by
  unfold numberStep
  cases stage <;> dsimp only <;> split_ifs <;> rfl

theorem exists_numberStep {stage stage' : NumberStage} {n m : Numeral}
    (h : numberStep stage n c = some (stage', m)) (n' : Numeral) :
    ∃ m', numberStep stage n' c = some (stage', m') := by
  have hstage := numberStep_stage stage n n' c
  rw [h, Option.map_some, eq_comm, Option.map_eq_some_iff] at hstage
  obtain ⟨⟨stage'', m'⟩, hstep, rfl⟩ := hstage
  exact ⟨m', hstep⟩

theorem isSome_bind_numberStep (next : Option Char) (stage : NumberStage) (n n' : Numeral) :
    (next.bind (numberStep stage n)).isSome = (next.bind (numberStep stage n')).isSome := by
  cases next with
  | none => rfl
  | some c =>
    rw [Option.bind_some, Option.bind_some, ← Option.isSome_map (f := Prod.fst),
      numberStep_stage stage n n' c, Option.isSome_map]

theorem exists_numberValue (n : Numeral) : ∃ v, numberValue false n = .ok v := by
  unfold numberValue
  cases (inOrder n).toJson? with
  | some v => exact ⟨v, rfl⟩
  | none => exact ⟨_, rfl⟩

theorem Starts.skipped {phase : Phase} (h : Starts true depth c phase) (depth' : Nat) :
    Starts false depth' c phase ∧ phase.Follows phase := by
  cases h with
  | text => exact ⟨.text, .text .plain⟩
  | array _ => exact ⟨.array nofun, .firstItem⟩
  | object _ => exact ⟨.object nofun, .firstName⟩
  | null => exact ⟨.null, .word⟩
  | yes => exact ⟨.yes, .word⟩
  | no => exact ⟨.no, .word⟩
  | minus => exact ⟨.minus, .number⟩
  | digit h => exact ⟨.digit h, .number⟩

/-- A character that is read in full can be skipped. -/
theorem Turns.follows {phase phase' : Phase} {m : Move} (h : Turns true depth c phase m)
    (hphase : phase.Follows phase') (depth' : Nat) :
    ∃ m', Turns false depth' c phase' m' ∧ m.Follows m' := by
  cases h with
  | space hspace hc =>
    refine ⟨_, .space ?_ hc, .stay hphase⟩
    cases hphase <;> exact hspace
  | value hc h =>
    cases hphase
    obtain ⟨hstart, hfollows⟩ := h.skipped depth'
    exact ⟨_, .value hc hstart, .stay hfollows⟩
  | noItem hc =>
    cases hphase
    exact ⟨_, .noItem hc, .leave⟩
  | firstItem hc hne h =>
    cases hphase
    obtain ⟨hstart, hfollows⟩ := h.skipped (depth' + 1)
    exact ⟨_, .firstItem hc hne hstart, .enter hfollows .array⟩
  | nextItem hc =>
    cases hphase
    exact ⟨_, .nextItem hc, .enter .value .array⟩
  | lastItem hc =>
    cases hphase
    exact ⟨_, .lastItem hc, .leave⟩
  | firstName hc =>
    cases hphase
    exact ⟨_, .firstName hc, .stay (.name .plain)⟩
  | noMember hc =>
    cases hphase
    exact ⟨_, .noMember hc, .leave⟩
  | nextName hc =>
    cases hphase
    exact ⟨_, .nextName hc, .stay (.name .plain)⟩
  | inName h =>
    cases hphase
    obtain ⟨out', hskip⟩ := quoteStep_skipped h _
    exact ⟨_, .inName hskip, .stay (.name _)⟩
  | endName h =>
    cases hphase
    obtain ⟨out', hskip⟩ := quoteStep_skipped h _
    exact ⟨_, .endName hskip, .stay .colon⟩
  | colon hc =>
    cases hphase
    exact ⟨_, .colon hc, .enter .value .object⟩
  | nextMember hc =>
    cases hphase
    exact ⟨_, .nextMember hc, .stay .nextName⟩
  | lastMember hc =>
    cases hphase
    exact ⟨_, .lastMember hc, .leave⟩
  | inText h =>
    cases hphase
    obtain ⟨out', hskip⟩ := quoteStep_skipped h _
    exact ⟨_, .inText hskip, .stay (.text _)⟩
  | endText h =>
    cases hphase
    obtain ⟨out', hskip⟩ := quoteStep_skipped h _
    exact ⟨_, .endText hskip, .leave⟩
  | inWord hleft =>
    cases hphase
    exact ⟨_, .inWord hleft, .stay .word⟩
  | endWord =>
    cases hphase
    exact ⟨_, .endWord, .leave⟩
  | inNumber h =>
    cases hphase
    obtain ⟨m', hskip⟩ := exists_numberStep h _
    exact ⟨_, .inNumber hskip, .stay .number⟩

theorem Settles.follows {phase phase' : Phase} {m : Move} (h : Settles true next phase m)
    (hphase : phase.Follows phase') : ∃ m', Settles false next phase' m' ∧ m.Follows m' := by
  cases h with
  | ready hready =>
    refine ⟨_, .ready ?_, .stay hphase⟩
    rintro stage n rfl
    cases hphase
    exact hready _ _ rfl
  | goesOn hnext =>
    cases hphase
    exact ⟨_, .goesOn (by rwa [isSome_bind_numberStep next _ _]), .stay .number⟩
  | ends hnext hends hv =>
    cases hphase
    rename_i n'
    obtain ⟨v', hv'⟩ := exists_numberValue n'
    refine ⟨_, .ends ?_ hends hv', .leave⟩
    rw [← Option.not_isSome_iff_eq_none, isSome_bind_numberStep next, hnext]
    exact Bool.false_ne_true

end Reader

namespace RecordReader

open Reader

variable (fields : List Field)

/-! ## Both readings of a text -/

/-- Reads one character; what stands under a name that is no column is only skipped. -/
def skimStep (s : State) (c : Char) : Except Fault State := do
  let settled ← settle (keeps fields s) s (some c)
  advance (keeps fields settled) settled c

/-- The value of a text with members skipped. -/
def skim (text : String) : Except Fault Json := do
  let s ← text.toList.foldlM (skimStep fields) start
  result (← settle (keeps fields s) s none)

/-- The members that are columns. -/
def knownMembers (members : List (String × Json)) : List (String × Json) :=
  members.filter fun m => (field? fields m.1).isSome

/-- Values that differ in no more than the members that are no columns. -/
inductive Agree : Json → Json → Prop where
  | same {v : Json} : Agree v v
  | object {members members' : List (String × Json)}
      (h : knownMembers fields members = knownMembers fields members') :
      Agree (.obj members) (.obj members')

/-- The frames around the record itself, in both readings. -/
inductive FramesAgree : Frame → Frame → Prop where
  | array {before : List Json} : FramesAgree (.array before) (.array before)
  | object {before before' : List (String × Json)} {name : String}
      (h : knownMembers fields before = knownMembers fields before') :
      FramesAgree (.object before name) (.object before' name)

/-- The phases outside all frames, in both readings. -/
inductive PhasesAgree : Phase → Phase → Prop where
  | same {phase : Phase} : PhasesAgree phase phase
  | nextName {members members' : List (String × Json)}
      (h : knownMembers fields members = knownMembers fields members') :
      PhasesAgree (.nextName members) (.nextName members')
  | name {members members' : List (String × Json)} {out : List Char} {place : Quote}
      (h : knownMembers fields members = knownMembers fields members') :
      PhasesAgree (.name members out place) (.name members' out place)
  | colon {members members' : List (String × Json)} {name : String}
      (h : knownMembers fields members = knownMembers fields members') :
      PhasesAgree (.colon members name) (.colon members' name)
  | afterMember {members members' : List (String × Json)}
      (h : knownMembers fields members = knownMembers fields members') :
      PhasesAgree (.afterMember members) (.afterMember members')
  | done {v v' : Json} (h : Agree fields v v') : PhasesAgree (.done v) (.done v')

/-- Whether what stands inside the outermost frame is kept. -/
def isKept : Frame → Bool
  | .array _ => true
  | .object _ name => (field? fields name).isSome

/-- The states of both readings of a text: outside all frames, inside a part that is kept, and
inside a part that is skipped. -/
inductive Alike : State → State → Prop where
  | top {phase phase' : Phase} (h : PhasesAgree fields phase phase') :
      Alike ⟨phase, []⟩ ⟨phase', []⟩
  | kept {phase : Phase} (inner : List Frame) {frame frame' : Frame}
      (hframe : FramesAgree fields frame frame') (hkept : isKept fields frame' = true) :
      Alike ⟨phase, inner ++ [frame]⟩ ⟨phase, inner ++ [frame']⟩
  | skipped {phase phase' : Phase} (inner inner' : List Frame) {frame frame' : Frame}
      (hframe : FramesAgree fields frame frame') (hskipped : isKept fields frame' = false)
      (hphase : phase.Follows phase') (hinner : List.Forall₂ Frame.SameKind inner inner') :
      Alike ⟨phase, inner ++ [frame]⟩ ⟨phase', inner' ++ [frame']⟩

variable {fields}

theorem keeps_append (phase : Phase) (inner : List Frame) (frame : Frame) :
    keeps fields ⟨phase, inner ++ [frame]⟩ = isKept fields frame := by
  unfold keeps isKept
  rw [List.getLast?_concat]
  cases frame <;> rfl

theorem knownMembers_cons {members members' : List (String × Json)} {name : String} {v v' : Json}
    (h : knownMembers fields members = knownMembers fields members')
    (hv : (field? fields name).isSome = true → v = v') :
    knownMembers fields ((name, v) :: members) = knownMembers fields ((name, v') :: members') := by
  unfold knownMembers at h ⊢
  rw [List.filter_cons, List.filter_cons, h]
  dsimp only
  split_ifs with hname
  · rw [hv hname]
  · rfl

theorem knownMembers_reverse {members members' : List (String × Json)}
    (h : knownMembers fields members = knownMembers fields members') :
    knownMembers fields members.reverse = knownMembers fields members'.reverse := by
  unfold knownMembers at h ⊢
  rw [List.filter_reverse, List.filter_reverse, h]

/-- A value that is complete inside the outermost frame becomes a part of the record. -/
theorem alike_complete {frame frame' : Frame} (hframe : FramesAgree fields frame frame')
    {v v' : Json} (hv : isKept fields frame' = true → v = v') :
    Alike fields (complete v [frame]) (complete v' [frame']) := by
  cases hframe with
  | array =>
    rw [hv rfl]
    exact .top .same
  | object h => exact .top (.afterMember (knownMembers_cons h hv))

theorem alike_apply_of_kept {frame frame' : Frame} (hframe : FramesAgree fields frame frame')
    (hkept : isKept fields frame' = true) (inner : List Frame) (m : Move) :
    Alike fields (m.apply (inner ++ [frame])) (m.apply (inner ++ [frame'])) := by
  cases m with
  | stay phase => exact .kept _ hframe hkept
  | enter phase next => exact .kept (next :: inner) hframe hkept
  | leave v =>
    cases inner with
    | nil => exact alike_complete hframe fun _ => rfl
    | cons next inner => cases next <;> exact .kept _ hframe hkept

theorem alike_apply_of_skipped {frame frame' : Frame} (hframe : FramesAgree fields frame frame')
    (hskipped : isKept fields frame' = false) {inner inner' : List Frame}
    (hinner : List.Forall₂ Frame.SameKind inner inner') {m m' : Move} (hm : m.Follows m') :
    Alike fields (m.apply (inner ++ [frame])) (m'.apply (inner' ++ [frame'])) := by
  cases hm with
  | stay hphase => exact .skipped _ _ hframe hskipped hphase hinner
  | enter hphase hnext => exact .skipped _ _ hframe hskipped hphase (.cons hnext hinner)
  | leave =>
    cases hinner with
    | nil =>
      refine alike_complete hframe fun hkept => ?_
      rw [hskipped] at hkept
      exact nomatch hkept
    | cons hnext hinner =>
      cases hnext with
      | array => exact .skipped _ _ hframe hskipped .afterItem hinner
      | object => exact .skipped _ _ hframe hskipped .afterMember hinner

/-- Outside all frames both readings make the same moves, and then are in a part that is kept or in
one that is skipped. -/
theorem exists_turn_at_top {c : Char} {phase phase' : Phase} {m : Move}
    (h : Turns true 0 c phase m) (hphase : PhasesAgree fields phase phase') :
    ∃ m', Turns true 0 c phase' m' ∧ Alike fields (m.apply []) (m'.apply []) := by
  have hobject : ∀ {members members' : List (String × Json)} {name : String},
      knownMembers fields members = knownMembers fields members' →
      Alike fields ⟨.value, [.object members name]⟩ ⟨.value, [.object members' name]⟩ := by
    intro members members' name hmembers
    cases hkept : isKept fields (.object members' name) with
    | true => exact .kept [] (.object hmembers) hkept
    | false => exact .skipped [] [] (.object hmembers) hkept .value .nil
  cases hphase with
  | same =>
    refine ⟨m, h, ?_⟩
    cases m with
    | stay phase => exact .top .same
    | leave v => exact .top .same
    | enter phase frame =>
      cases h with
      | firstItem _ _ _ => exact .kept [] .array rfl
      | nextItem _ => exact .kept [] .array rfl
      | colon _ => exact hobject rfl
  | nextName hmembers =>
    cases h with
    | space _ hc => exact ⟨_, .space rfl hc, .top (.nextName hmembers)⟩
    | nextName hc => exact ⟨_, .nextName hc, .top (.name hmembers)⟩
  | name hmembers =>
    cases h with
    | space hspace _ => exact nomatch hspace
    | inName h => exact ⟨_, .inName h, .top (.name hmembers)⟩
    | endName h => exact ⟨_, .endName h, .top (.colon hmembers)⟩
  | colon hmembers =>
    cases h with
    | space _ hc => exact ⟨_, .space rfl hc, .top (.colon hmembers)⟩
    | colon hc => exact ⟨_, .colon hc, hobject hmembers⟩
  | afterMember hmembers =>
    cases h with
    | space _ hc => exact ⟨_, .space rfl hc, .top (.afterMember hmembers)⟩
    | nextMember hc => exact ⟨_, .nextMember hc, .top (.nextName hmembers)⟩
    | lastMember hc =>
      exact ⟨_, .lastMember hc, .top (.done (.object (knownMembers_reverse hmembers)))⟩
  | done hv =>
    cases h with
    | space _ hc => exact ⟨_, .space rfl hc, .top (.done hv)⟩

theorem exists_settling_at_top {next : Option Char} {phase phase' : Phase} {m : Move}
    (h : Settles true next phase m) (hphase : PhasesAgree fields phase phase') :
    ∃ m', Settles true next phase' m' ∧ Alike fields (m.apply []) (m'.apply []) := by
  cases hphase with
  | same =>
    refine ⟨m, h, ?_⟩
    cases m with
    | stay phase => exact .top .same
    | leave v => exact .top .same
    | enter phase frame => exact nomatch h
  | nextName _ | name _ | colon _ | afterMember _ | done _ =>
    cases h
    exact ⟨_, .ready nofun, .top (by constructor; assumption)⟩

/-- A character that is read in full is also read with members skipped. -/
theorem Alike.advance {s t s' : State} {c : Char} (h : Alike fields s t)
    (hs : advance true s c = .ok s') :
    ∃ t', Reader.advance (keeps fields t) t c = .ok t' ∧ Alike fields s' t' := by
  cases h with
  | top hphase =>
    obtain ⟨m, hm, rfl⟩ := advance_eq_ok_iff.mp hs
    obtain ⟨m', hm', halike⟩ := exists_turn_at_top hm hphase
    exact ⟨_, advance_eq_ok_iff.mpr ⟨m', hm', rfl⟩, halike⟩
  | kept inner hframe hkept =>
    obtain ⟨m, hm, rfl⟩ := advance_eq_ok_iff.mp hs
    refine ⟨_, advance_eq_ok_iff.mpr ⟨m, ?_, rfl⟩, alike_apply_of_kept hframe hkept inner m⟩
    rw [keeps_append, hkept, List.length_append, List.length_singleton]
    rwa [List.length_append, List.length_singleton] at hm
  | skipped inner inner' hframe hskipped hphase hinner =>
    obtain ⟨m, hm, rfl⟩ := advance_eq_ok_iff.mp hs
    obtain ⟨m', hm', hmoves⟩ := hm.follows hphase _
    refine ⟨_, advance_eq_ok_iff.mpr ⟨m', ?_, rfl⟩,
      alike_apply_of_skipped hframe hskipped hinner hmoves⟩
    rw [keeps_append, hskipped]
    exact hm'

theorem Alike.settle {s t s' : State} {next : Option Char} (h : Alike fields s t)
    (hs : settle true s next = .ok s') :
    ∃ t', Reader.settle (keeps fields t) t next = .ok t' ∧ Alike fields s' t' := by
  cases h with
  | top hphase =>
    obtain ⟨m, hm, rfl⟩ := settle_eq_ok_iff.mp hs
    obtain ⟨m', hm', halike⟩ := exists_settling_at_top hm hphase
    exact ⟨_, settle_eq_ok_iff.mpr ⟨m', hm', rfl⟩, halike⟩
  | kept inner hframe hkept =>
    obtain ⟨m, hm, rfl⟩ := settle_eq_ok_iff.mp hs
    refine ⟨_, settle_eq_ok_iff.mpr ⟨m, ?_, rfl⟩, alike_apply_of_kept hframe hkept inner m⟩
    rwa [keeps_append, hkept]
  | skipped inner inner' hframe hskipped hphase hinner =>
    obtain ⟨m, hm, rfl⟩ := settle_eq_ok_iff.mp hs
    obtain ⟨m', hm', hmoves⟩ := hm.follows hphase
    refine ⟨_, settle_eq_ok_iff.mpr ⟨m', ?_, rfl⟩,
      alike_apply_of_skipped hframe hskipped hinner hmoves⟩
    rwa [keeps_append, hskipped]

theorem Alike.step {s t s' : State} {c : Char} (h : Alike fields s t)
    (hs : Reader.step true s c = .ok s') :
    ∃ t', skimStep fields t c = .ok t' ∧ Alike fields s' t' := by
  obtain ⟨settled, hsettle, hadvance⟩ := bind_eq_ok hs
  obtain ⟨settled', hsettle', halike⟩ := h.settle hsettle
  obtain ⟨t', hadvance', halike'⟩ := halike.advance hadvance
  refine ⟨t', ?_, halike'⟩
  rw [skimStep, hsettle']
  exact hadvance'

theorem Alike.foldlM {s t s' : State} {cs : List Char} (h : Alike fields s t)
    (hs : cs.foldlM (Reader.step true) s = .ok s') :
    ∃ t', cs.foldlM (skimStep fields) t = .ok t' ∧ Alike fields s' t' := by
  induction cs generalizing s t with
  | nil =>
    obtain rfl := Except.ok.inj hs
    exact ⟨t, rfl, h⟩
  | cons c cs ih =>
    rw [List.foldlM_cons] at hs
    obtain ⟨u, hstep, hrest⟩ := bind_eq_ok hs
    obtain ⟨u', hstep', halike⟩ := h.step hstep
    obtain ⟨t', hrest', halike'⟩ := ih halike hrest
    refine ⟨t', ?_, halike'⟩
    rw [List.foldlM_cons, hstep']
    exact hrest'

theorem Alike.of_top {phase : Phase} {t : State} (h : Alike fields ⟨phase, []⟩ t) :
    ∃ phase', t = ⟨phase', []⟩ ∧ PhasesAgree fields phase phase' := by
  generalize hs : State.mk phase [] = s at h
  cases h with
  | top hphase =>
    cases hs
    exact ⟨_, rfl, hphase⟩
  | kept _ _ _ | skipped _ _ _ _ _ _ => simp at hs

/-- A text that can be read in full can be read with members skipped, and nothing but these members
is different. -/
theorem skim_of_parse {text : String} {v : Json} (h : Json.parse text = .ok v) :
    ∃ v', skim fields text = .ok v' ∧ Agree fields v v' := by
  obtain ⟨s, hread, hend⟩ := parse_eq_ok h
  have hstart : Alike fields start start := .top .same
  obtain ⟨t, hskim, halike⟩ := hstart.foldlM hread
  obtain ⟨t', hend', halike'⟩ := halike.settle hend
  obtain ⟨phase, rfl, hphase⟩ := halike'.of_top
  have hdone : ∃ v', phase = .done v' ∧ Agree fields v v' := by
    cases hphase with
    | same => exact ⟨v, rfl, .same⟩
    | done hv => exact ⟨_, rfl, hv⟩
  obtain ⟨v', rfl, hagree⟩ := hdone
  refine ⟨v', ?_, hagree⟩
  rw [skim, hskim]
  show (Reader.settle _ t none >>= result) = _
  rw [hend']
  rfl

end RecordReader

end ArchDoc
