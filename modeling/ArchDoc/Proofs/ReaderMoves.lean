import ArchDoc.Proofs.JsonRoundTrip
import ArchDoc.Proofs.Outcomes

/-!
# The moves of the reading machine

One character moves the machine that reads JSON texts in one of three ways: the value in progress is
read further, a value inside it begins, or it is complete. Which of these happens depends on the
phase and the character, and what stands around the value matters only for how deep it may nest. All
moves are listed once, as a relation; what holds of every run is then shown move by move.

Main definitions:

* `Move`: what happens to the value in progress.
* `Turns`, `Settles`: the moves that a character makes, and those made before it is read.
* `State.MayGive`: the values that a state may still lead to.

Results:

* `advance_eq_ok_iff`, `settle_eq_ok_iff`: these are all the moves of the machine.
* `Turns.begins`, `Settles.begins`: a move leads to no value that was out of reach before it.
-/

namespace ArchDoc.Reader

/-! ## Moves -/

/-- What happens to the value in progress: it is read further, a value inside it begins, or it is
complete. -/
inductive Move where
  | stay (phase : Phase)
  | enter (phase : Phase) (frame : Frame)
  | leave (value : Json)

/-- The state after a move, inside what stands around the value. -/
def Move.apply (around : List Frame) : Move → State
  | stay phase => ⟨phase, around⟩
  | enter phase frame => ⟨phase, frame :: around⟩
  | leave value => complete value around

/-- Whether whitespace is passed over in a phase. -/
def Phase.passesSpace : Phase → Bool
  | .name .. | .text .. | .word .. | .number .. => false
  | .value | .firstItem | .afterItem _ | .firstName | .nextName _ | .colon .. | .afterMember _
  | .done _ => true

/-- The phase that the first character of a value leads to, with `depth` frames around it. -/
inductive Starts (keep : Bool) (depth : Nat) : Char → Phase → Prop where
  | text : Starts keep depth '"' (.text [] .plain)
  | array (hroom : keep = true → depth < maxDepth) : Starts keep depth '[' .firstItem
  | object (hroom : keep = true → depth < maxDepth) : Starts keep depth '\x7b' .firstName
  | null : Starts keep depth 'n' (.word ['u', 'l', 'l'] .null)
  | yes : Starts keep depth 't' (.word ['r', 'u', 'e'] (.bool true))
  | no : Starts keep depth 'f' (.word ['a', 'l', 's', 'e'] (.bool false))
  | minus : Starts keep depth '-' (.number .sign ⟨true, [], [], none⟩)
  | digit {c : Char} {stage : NumberStage} {n : Numeral}
      (h : numberStep .sign ⟨false, [], [], none⟩ c = some (stage, n)) :
      Starts keep depth c (.number stage n)

/-- The moves that a character makes in a phase, with `depth` frames around it. -/
inductive Turns (keep : Bool) (depth : Nat) (c : Char) : Phase → Move → Prop where
  | space {phase : Phase} (hphase : phase.passesSpace = true) (hc : isSpace c = true) :
      Turns keep depth c phase (.stay phase)
  | value {phase : Phase} (hc : isSpace c = false) (h : Starts keep depth c phase) :
      Turns keep depth c .value (.stay phase)
  | noItem (hc : c = ']') : Turns keep depth c .firstItem (.leave (.arr []))
  | firstItem {phase : Phase} (hc : isSpace c = false) (hne : c ≠ ']')
      (h : Starts keep (depth + 1) c phase) :
      Turns keep depth c .firstItem (.enter phase (.array []))
  | nextItem {items : List Json} (hc : c = ',') :
      Turns keep depth c (.afterItem items) (.enter .value (.array items))
  | lastItem {items : List Json} (hc : c = ']') :
      Turns keep depth c (.afterItem items) (.leave (.arr items.reverse))
  | firstName (hc : c = '"') : Turns keep depth c .firstName (.stay (.name [] [] .plain))
  | noMember (hc : c = '\x7d') : Turns keep depth c .firstName (.leave (.obj []))
  | nextName {members : List (String × Json)} (hc : c = '"') :
      Turns keep depth c (.nextName members) (.stay (.name members [] .plain))
  | inName {members : List (String × Json)} {out out' : List Char} {place place' : Quote}
      (h : quoteStep keep out place c = .ok (some (out', place'))) :
      Turns keep depth c (.name members out place) (.stay (.name members out' place'))
  | endName {members : List (String × Json)} {out : List Char} {place : Quote}
      (h : quoteStep keep out place c = .ok none) :
      Turns keep depth c (.name members out place)
        (.stay (.colon members (String.ofList out.reverse)))
  | colon {members : List (String × Json)} {name : String} (hc : c = ':') :
      Turns keep depth c (.colon members name) (.enter .value (.object members name))
  | nextMember {members : List (String × Json)} (hc : c = ',') :
      Turns keep depth c (.afterMember members) (.stay (.nextName members))
  | lastMember {members : List (String × Json)} (hc : c = '\x7d') :
      Turns keep depth c (.afterMember members) (.leave (.obj members.reverse))
  | inText {out out' : List Char} {place place' : Quote}
      (h : quoteStep keep out place c = .ok (some (out', place'))) :
      Turns keep depth c (.text out place) (.stay (.text out' place'))
  | endText {out : List Char} {place : Quote} (h : quoteStep keep out place c = .ok none) :
      Turns keep depth c (.text out place) (.leave (.str (String.ofList out.reverse)))
  | inWord {left : List Char} {v : Json} (hleft : left ≠ []) :
      Turns keep depth c (.word (c :: left) v) (.stay (.word left v))
  | endWord {v : Json} : Turns keep depth c (.word [c] v) (.leave v)
  | inNumber {stage stage' : NumberStage} {n n' : Numeral}
      (h : numberStep stage n c = some (stage', n')) :
      Turns keep depth c (.number stage n) (.stay (.number stage' n'))

/-- The moves that are made before a character, or the end of the text, is read: a number that it
does not continue is complete. -/
inductive Settles (keep : Bool) (next : Option Char) : Phase → Move → Prop where
  | ready {phase : Phase} (h : ∀ stage n, phase ≠ .number stage n) :
      Settles keep next phase (.stay phase)
  | goesOn {stage : NumberStage} {n : Numeral}
      (h : (next.bind (numberStep stage n)).isSome = true) :
      Settles keep next (.number stage n) (.stay (.number stage n))
  | ends {stage : NumberStage} {n : Numeral} {v : Json}
      (hnext : next.bind (numberStep stage n) = none) (hends : stage.endsBefore next = true)
      (hv : numberValue keep n = .ok v) : Settles keep next (.number stage n) (.leave v)

/-! ## These are all moves -/

variable {keep : Bool} {around : List Frame} {c : Char} {next : Option Char} {s t : State}

theorem openBracket_eq_ok_iff {phase : Phase} :
    openBracket keep around phase = .ok t ↔
      (keep = true → around.length < maxDepth) ∧ t = ⟨phase, around⟩ := by
  unfold openBracket
  cases keep with
  | false => simp [eq_comm]
  | true =>
    by_cases h : maxDepth ≤ around.length
    · simp [h, Nat.not_lt.mpr h]
    · simp [h, Nat.not_le.mp h, eq_comm]

theorem isDigit_of_numberStep_sign {n : Numeral} {r : NumberStage × Numeral}
    (h : numberStep .sign n c = some r) : isDigit c = true := by
  unfold numberStep at h
  dsimp only at h
  split_ifs at h with hzero hdigit
  · rw [hzero]
    rfl
  · exact hdigit

theorem startValue_eq_ok_iff :
    startValue keep around c = .ok t ↔
      ∃ phase, Starts keep around.length c phase ∧ t = ⟨phase, around⟩ := by
  constructor
  · intro h
    unfold startValue at h
    split_ifs at h with hquote hbracket hbrace hn ht hf hminus
    · subst hquote
      exact ⟨_, .text, (Except.ok.inj h).symm⟩
    · subst hbracket
      obtain ⟨hroom, rfl⟩ := openBracket_eq_ok_iff.mp h
      exact ⟨_, .array hroom, rfl⟩
    · subst hbrace
      obtain ⟨hroom, rfl⟩ := openBracket_eq_ok_iff.mp h
      exact ⟨_, .object hroom, rfl⟩
    · subst hn
      exact ⟨_, .null, (Except.ok.inj h).symm⟩
    · subst ht
      exact ⟨_, .yes, (Except.ok.inj h).symm⟩
    · subst hf
      exact ⟨_, .no, (Except.ok.inj h).symm⟩
    · subst hminus
      exact ⟨_, .minus, (Except.ok.inj h).symm⟩
    · split at h
      · next stage n hnumber => exact ⟨_, .digit hnumber, (Except.ok.inj h).symm⟩
      · exact nomatch h
  · rintro ⟨phase, h, rfl⟩
    cases h with
    | text | null | yes | no | minus => rfl
    | array hroom => exact openBracket_eq_ok_iff.mpr ⟨hroom, rfl⟩
    | object hroom => exact openBracket_eq_ok_iff.mpr ⟨hroom, rfl⟩
    | digit hnumber =>
      have hne : ∀ d, isDigit d = false → c ≠ d := fun _ =>
        ne_of_isDigit (isDigit_of_numberStep_sign hnumber)
      simp [startValue, hnumber, hne '"' rfl, hne '[' rfl, hne '\x7b' rfl, hne 'n' rfl,
        hne 't' rfl, hne 'f' rfl, hne '-' rfl]

theorem Turns.advance {phase : Phase} {m : Move} (h : Turns keep around.length c phase m) :
    advance keep ⟨phase, around⟩ c = .ok (m.apply around) := by
  cases h with
  | space hphase hc =>
    cases phase with
    | name _ _ _ | text _ _ | word _ _ | number _ _ => exact nomatch hphase
    | value | firstItem | afterItem _ | firstName | nextName _ | colon _ _ | afterMember _
    | done _ => exact if_pos hc
  | value hc h =>
    have hstart := startValue_eq_ok_iff.mpr ⟨_, h, rfl⟩
    simp [Reader.advance, hc, hstart, Move.apply]
  | firstItem hc hne h =>
    have hstart : startValue keep (.array [] :: around) c = _ :=
      startValue_eq_ok_iff.mpr ⟨_, h, rfl⟩
    simp [Reader.advance, hc, hne, hstart, Move.apply]
  | noItem hc | nextItem hc | lastItem hc | firstName hc | noMember hc | nextName hc | colon hc
  | nextMember hc | lastMember hc =>
    subst hc
    rfl
  | inName h | endName h | inText h | endText h =>
    simp only [Reader.advance, h]
    rfl
  | inWord hleft => simp [Reader.advance, hleft, Move.apply]
  | endWord => simp [Reader.advance, Move.apply]
  | inNumber h => simp [Reader.advance, h, Move.apply]

theorem turns_of_advance {phase : Phase} (h : advance keep ⟨phase, around⟩ c = .ok t) :
    ∃ m, Turns keep around.length c phase m ∧ t = m.apply around := by
  unfold advance at h
  cases phase with
  | text out place =>
    dsimp only at h
    cases hquote : quoteStep keep out place c with
    | error e =>
      rw [hquote] at h
      exact nomatch h
    | ok r =>
      rw [hquote] at h
      rcases r with _ | ⟨out', place'⟩
      · exact ⟨_, .endText hquote, (Except.ok.inj h).symm⟩
      · exact ⟨_, .inText hquote, (Except.ok.inj h).symm⟩
  | name members out place =>
    dsimp only at h
    cases hquote : quoteStep keep out place c with
    | error e =>
      rw [hquote] at h
      exact nomatch h
    | ok r =>
      rw [hquote] at h
      rcases r with _ | ⟨out', place'⟩
      · exact ⟨_, .endName hquote, (Except.ok.inj h).symm⟩
      · exact ⟨_, .inName hquote, (Except.ok.inj h).symm⟩
  | word left v =>
    dsimp only at h
    split at h
    · exact nomatch h
    · next d left =>
      split_ifs at h with hd hleft
      · obtain rfl := Decidable.not_not.mp hd
        obtain rfl := List.isEmpty_iff.mp hleft
        exact ⟨_, .endWord, (Except.ok.inj h).symm⟩
      · obtain rfl := Decidable.not_not.mp hd
        exact ⟨_, .inWord (by simpa using hleft), (Except.ok.inj h).symm⟩
  | number stage n =>
    dsimp only at h
    split at h
    · next stage' n' hnumber => exact ⟨_, .inNumber hnumber, (Except.ok.inj h).symm⟩
    · exact nomatch h
  | value =>
    dsimp only at h
    split_ifs at h with hc
    · exact ⟨_, .space rfl hc, (Except.ok.inj h).symm⟩
    · obtain ⟨phase, hstart, rfl⟩ := startValue_eq_ok_iff.mp h
      exact ⟨_, .value (by simpa using hc) hstart, rfl⟩
  | firstItem =>
    dsimp only at h
    split_ifs at h with hc hbracket
    · exact ⟨_, .space rfl hc, (Except.ok.inj h).symm⟩
    · exact ⟨_, .noItem hbracket, (Except.ok.inj h).symm⟩
    · obtain ⟨phase, hstart, rfl⟩ := startValue_eq_ok_iff.mp h
      exact ⟨_, .firstItem (by simpa using hc) hbracket hstart, rfl⟩
  | afterItem items =>
    dsimp only at h
    split_ifs at h with hc hcomma hbracket
    · exact ⟨_, .space rfl hc, (Except.ok.inj h).symm⟩
    · exact ⟨_, .nextItem hcomma, (Except.ok.inj h).symm⟩
    · exact ⟨_, .lastItem hbracket, (Except.ok.inj h).symm⟩
  | firstName =>
    dsimp only at h
    split_ifs at h with hc hquote hbrace
    · exact ⟨_, .space rfl hc, (Except.ok.inj h).symm⟩
    · exact ⟨_, .firstName hquote, (Except.ok.inj h).symm⟩
    · exact ⟨_, .noMember hbrace, (Except.ok.inj h).symm⟩
  | nextName members =>
    dsimp only at h
    split_ifs at h with hc hquote
    · exact ⟨_, .space rfl hc, (Except.ok.inj h).symm⟩
    · exact ⟨_, .nextName hquote, (Except.ok.inj h).symm⟩
  | colon members name =>
    dsimp only at h
    split_ifs at h with hc hcolon
    · exact ⟨_, .space rfl hc, (Except.ok.inj h).symm⟩
    · exact ⟨_, .colon hcolon, (Except.ok.inj h).symm⟩
  | afterMember members =>
    dsimp only at h
    split_ifs at h with hc hcomma hbrace
    · exact ⟨_, .space rfl hc, (Except.ok.inj h).symm⟩
    · exact ⟨_, .nextMember hcomma, (Except.ok.inj h).symm⟩
    · exact ⟨_, .lastMember hbrace, (Except.ok.inj h).symm⟩
  | done v =>
    dsimp only at h
    split_ifs at h with hc
    exact ⟨_, .space rfl hc, (Except.ok.inj h).symm⟩

/-- A character is read exactly when it makes a move. -/
theorem advance_eq_ok_iff {phase : Phase} :
    advance keep ⟨phase, around⟩ c = .ok t ↔
      ∃ m, Turns keep around.length c phase m ∧ t = m.apply around := by
  constructor
  · exact turns_of_advance
  · rintro ⟨m, h, rfl⟩
    exact h.advance

theorem settle_eq_ok_iff {phase : Phase} :
    settle keep ⟨phase, around⟩ next = .ok t ↔
      ∃ m, Settles keep next phase m ∧ t = m.apply around := by
  by_cases hphase : ∃ stage n, phase = .number stage n
  · obtain ⟨stage, n, rfl⟩ := hphase
    unfold settle
    dsimp only
    cases hnext : next.bind (numberStep stage n) with
    | some r =>
      constructor
      · intro h
        exact ⟨_, .goesOn (by rw [hnext]; rfl), (Except.ok.inj h).symm⟩
      · rintro ⟨m, h, rfl⟩
        cases h with
        | ready h => exact absurd rfl (h stage n)
        | goesOn _ => rfl
        | ends hnone _ _ => exact nomatch hnext.symm.trans hnone
    | none =>
      constructor
      · intro h
        dsimp only at h
        split_ifs at h with hends
        cases hv : numberValue keep n with
        | error e =>
          rw [hv] at h
          exact nomatch h
        | ok v =>
          rw [hv] at h
          exact ⟨_, .ends hnext hends hv, (Except.ok.inj h).symm⟩
      · rintro ⟨m, h, rfl⟩
        cases h with
        | ready h => exact absurd rfl (h stage n)
        | goesOn hsome =>
          rw [hnext] at hsome
          exact nomatch hsome
        | ends _ hends hv =>
          simp only [hends, if_true, hv]
          rfl
  · have hsettle : settle keep ⟨phase, around⟩ next = .ok ⟨phase, around⟩ := by
      cases phase with
      | number stage n => exact absurd ⟨stage, n, rfl⟩ hphase
      | value | firstItem | afterItem _ | firstName | nextName _ | name _ _ _ | colon _ _
      | afterMember _ | text _ _ | word _ _ | done _ => rfl
    rw [hsettle]
    constructor
    · intro h
      exact ⟨_, .ready fun stage n hn => hphase ⟨stage, n, hn⟩, (Except.ok.inj h).symm⟩
    · rintro ⟨m, h, rfl⟩
      cases h with
      | ready _ => rfl
      | goesOn _ | ends _ _ _ => exact absurd ⟨_, _, rfl⟩ hphase

theorem result_eq_ok {v : Json} (h : result s = .ok v) : s = ⟨.done v, []⟩ := by
  obtain ⟨phase, around⟩ := s
  unfold result at h
  dsimp only at h
  split at h
  · cases h
    rfl
  · exact nomatch h

/-- A text is read character by character, and its value is complete when it ends. -/
theorem parse_eq_ok {text : String} {v : Json} (h : Json.parse text = .ok v) :
    ∃ s, text.toList.foldlM (step true) start = .ok s ∧
      settle true s none = .ok ⟨.done v, []⟩ := by
  obtain ⟨s, hread, hfinish⟩ := bind_eq_ok h
  obtain ⟨settled, hsettle, hresult⟩ := bind_eq_ok hfinish
  obtain rfl := result_eq_ok hresult
  exact ⟨s, hread, hsettle⟩

/-! ## What a state may still lead to -/

/-- The values that a frame may become around a value. -/
def Frame.Holds (part : Json) : Frame → Json → Prop
  | .array before, whole => ∃ after, whole = .arr (before.reverse ++ part :: after)
  | .object before name, whole => ∃ after, whole = .obj (before.reverse ++ (name, part) :: after)

/-- The values that frames may become around a value, innermost frame first. -/
def Encloses : List Frame → Json → Json → Prop
  | [], part, whole => part = whole
  | frame :: around, part, whole => ∃ inner, frame.Holds part inner ∧ Encloses around inner whole

/-- The values that a phase may still lead to. -/
def Phase.Begins : Phase → Json → Prop
  | .value, _ | .text _ _, _ | .word _ _, _ | .number _ _, _ => True
  | .firstItem, v => ∃ items, v = .arr items
  | .afterItem items, v => ∃ after, v = .arr (items.reverse ++ after)
  | .firstName, v => ∃ members, v = .obj members
  | .nextName members, v | .name members _ _, v | .afterMember members, v =>
    ∃ after, v = .obj (members.reverse ++ after)
  | .colon members n, v => ∃ w after, v = .obj (members.reverse ++ (n, w) :: after)
  | .done w, v => w = v

/-- The values that a state may still lead to. -/
def State.MayGive (s : State) (whole : Json) : Prop :=
  ∃ part, s.phase.Begins part ∧ Encloses s.around part whole

/-- The values that the value in progress may still become after a move. -/
def Move.Begins : Move → Json → Prop
  | stay phase, v => phase.Begins v
  | enter phase frame, v => ∃ part, phase.Begins part ∧ frame.Holds part v
  | leave w, v => w = v

theorem mayGive_complete {v whole : Json} :
    (complete v around).MayGive whole ↔ Encloses around v whole := by
  rcases around with _ | ⟨_ | _, around⟩ <;>
    simp [complete, State.MayGive, Phase.Begins, Encloses, Frame.Holds]

theorem Move.mayGive_apply {m : Move} {whole : Json} :
    (m.apply around).MayGive whole ↔ ∃ part, m.Begins part ∧ Encloses around part whole := by
  cases m with
  | stay phase => exact Iff.rfl
  | enter phase frame =>
    constructor
    · rintro ⟨part, hpart, inner, hinner, hwhole⟩
      exact ⟨inner, ⟨part, hpart, hinner⟩, hwhole⟩
    · rintro ⟨inner, ⟨part, hpart, hinner⟩, hwhole⟩
      exact ⟨part, hpart, inner, hinner, hwhole⟩
  | leave v => simp [apply, mayGive_complete, Begins]

/-- A character leads to no value that was out of reach before it. -/
theorem Turns.begins {depth : Nat} {phase : Phase} {m : Move} (h : Turns keep depth c phase m)
    {v : Json} (hv : m.Begins v) : phase.Begins v := by
  cases h with
  | space _ _ => exact hv
  | value _ _ | inText _ | endText _ | inWord _ | endWord | inNumber _ => trivial
  | noItem _ => exact ⟨[], hv.symm⟩
  | firstItem _ _ _ =>
    obtain ⟨part, _, after, rfl⟩ := hv
    exact ⟨_, rfl⟩
  | nextItem _ =>
    obtain ⟨part, _, after, rfl⟩ := hv
    exact ⟨_, rfl⟩
  | lastItem _ => exact ⟨[], by rw [List.append_nil]; exact hv.symm⟩
  | firstName _ =>
    obtain ⟨after, rfl⟩ := hv
    exact ⟨_, rfl⟩
  | noMember _ => exact ⟨[], hv.symm⟩
  | nextName _ | inName _ | nextMember _ => exact hv
  | endName _ =>
    obtain ⟨w, after, rfl⟩ := hv
    exact ⟨_, rfl⟩
  | colon _ =>
    obtain ⟨part, _, after, rfl⟩ := hv
    exact ⟨part, after, rfl⟩
  | lastMember _ => exact ⟨[], by rw [List.append_nil]; exact hv.symm⟩

theorem Settles.begins {phase : Phase} {m : Move} (h : Settles keep next phase m) {v : Json}
    (hv : m.Begins v) : phase.Begins v := by
  cases h with
  | ready _ => exact hv
  | goesOn _ | ends _ _ _ => trivial

/-- Reading a character leads to no value that was out of reach before it. -/
theorem mayGive_of_advance (h : advance keep s c = .ok t) {whole : Json} (ht : t.MayGive whole) :
    s.MayGive whole := by
  obtain ⟨m, hm, rfl⟩ := advance_eq_ok_iff.mp h
  obtain ⟨part, hpart, hwhole⟩ := Move.mayGive_apply.mp ht
  exact ⟨part, hm.begins hpart, hwhole⟩

theorem mayGive_of_settle (h : settle keep s next = .ok t) {whole : Json} (ht : t.MayGive whole) :
    s.MayGive whole := by
  obtain ⟨m, hm, rfl⟩ := settle_eq_ok_iff.mp h
  obtain ⟨part, hpart, hwhole⟩ := Move.mayGive_apply.mp ht
  exact ⟨part, hm.begins hpart, hwhole⟩

end ArchDoc.Reader
