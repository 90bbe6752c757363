import ArchDoc.Json.Reader
import ArchDoc.Json.Writer
import Mathlib.Tactic.SplitIfs

/-!
# Reading what was written

The machine that reads JSON texts, started where a value may stand, takes in exactly the characters
that were written for a value and goes on as if the value were complete. What follows may be
anything that does not continue a number, so the statement holds inside arrays and objects as well,
and the proof is one recursion over the value, for both layouts at once.

Main definitions:

* `Json.Fits`: the values that are read back, and how deep they may nest.
* `readFrom`: the value of the characters that follow a state.

Results:

* `InQuotes.readFrom_quote`: a text in quotes, whether it is a value or a name.
* `readFrom_digits`: a number.
* `readFrom_write`: a value, with anything around it and behind it.
* `Json.parse_pretty`, `Json.parse_compact`: both layouts of a value spell the value.
-/

namespace ArchDoc

/-! ## The values that are read back -/

namespace Json

mutual

/-- A value whose numbers are integers of 64 bits, and whose arrays and objects nest at most `room`
deep. -/
def Fits (room : Nat) : Json → Prop
  | null | bool _ | str _ => True
  | int n => Int64.minValue.toInt ≤ n ∧ n < UInt64.size
  | real _ => False
  | arr items => 0 < room ∧ FitsItems (room - 1) items
  | obj members => 0 < room ∧ FitsMembers (room - 1) members

/-- Items that all fit. -/
def FitsItems (room : Nat) : List Json → Prop
  | [] => True
  | v :: rest => Fits room v ∧ FitsItems room rest

/-- Members whose values all fit. -/
def FitsMembers (room : Nat) : List (String × Json) → Prop
  | [] => True
  | (_, v) :: rest => Fits room v ∧ FitsMembers room rest

end

theorem fitsItems_iff {room : Nat} {items : List Json} :
    FitsItems room items ↔ ∀ v ∈ items, Fits room v := by
  induction items with
  | nil => simp [FitsItems]
  | cons v rest ih => simp [FitsItems, ih]

theorem fitsMembers_iff {room : Nat} {members : List (String × Json)} :
    FitsMembers room members ↔ ∀ m ∈ members, Fits room m.2 := by
  induction members with
  | nil => simp [FitsMembers]
  | cons m rest ih => simp [FitsMembers, ih]

end Json

namespace Reader

open Json (escapeChar hexDigit quote)

/-! ## States and the characters behind them -/

/-- The value of the characters that follow a state. -/
def readFrom (s : State) (cs : List Char) : Except Fault Json := do
  finish true (← cs.foldlM (step true) s)

theorem readFrom_cons {s next : State} {c : Char} (h : step true s c = .ok next)
    (cs : List Char) : readFrom s (c :: cs) = readFrom next cs := by
  simp only [readFrom, List.foldlM_cons, h]
  rfl

theorem settle_complete (v : Json) (around : List Frame) (next : Option Char) :
    settle true (complete v around) next = .ok (complete v around) := by
  rcases around with _ | ⟨_ | _, _⟩ <;> rfl

/-- A state in which whitespace is passed over. -/
def Waits (s : State) : Prop :=
  ∀ c, isSpace c = true → step true s c = .ok s

theorem Waits.readFrom {s : State} (h : Waits s) {spaces : List Char}
    (hspaces : ∀ c ∈ spaces, isSpace c = true) (cs : List Char) :
    readFrom s (spaces ++ cs) = Reader.readFrom s cs := by
  induction spaces with
  | nil => rfl
  | cons c spaces ih =>
    rw [List.cons_append, readFrom_cons (h c (hspaces c List.mem_cons_self))]
    exact ih fun d hd => hspaces d (List.mem_cons_of_mem c hd)

theorem isSpace_of_mem_lineBreak {layout : Layout} {c : Char} (h : c ∈ layout.lineBreak) :
    isSpace c = true := by
  cases layout with
  | line => exact absurd h List.not_mem_nil
  | block level =>
    rcases List.mem_cons.mp h with rfl | hspace
    · rfl
    · rw [List.eq_of_mem_replicate hspace]
      rfl

/-! ## Texts in quotes -/

/-- A family of states in which a text in quotes is read, by what is read so far, and the states
that follow the closing quote. -/
def InQuotes (within : List Char → Quote → State) (behind : String → State) : Prop :=
  ∀ out place c, step true (within out place) c =
    (quoteStep true out place c).map fun
      | some (out, place) => within out place
      | none => behind (String.ofList out.reverse)

theorem inQuotes_text (around : List Frame) :
    InQuotes (fun out place => ⟨.text out place, around⟩)
      fun s => complete (.str s) around := by
  intro out place c
  show advance true ⟨.text out place, around⟩ c = _
  unfold advance
  dsimp only
  rcases quoteStep true out place c with _ | _ | ⟨_, _⟩ <;> rfl

theorem inQuotes_name (members : List (String × Json)) (around : List Frame) :
    InQuotes (fun out place => ⟨.name members out place, around⟩)
      fun s => ⟨.colon members s, around⟩ := by
  intro out place c
  show advance true ⟨.name members out place, around⟩ c = _
  unfold advance
  dsimp only
  rcases quoteStep true out place c with _ | _ | ⟨_, _⟩ <;> rfl

/-- Every control character is spelled by its two hexadecimal digits. -/
theorem hexUnit?_hexDigit {n : Nat} (h : n < 0x20) :
    hexUnit? ['0', '0', hexDigit (n / 16), hexDigit (n % 16)] = some n ∧
      utf8Length [hexDigit (n / 16), '0', '0'] = 3 ∧
      utf8Length [hexDigit (n % 16), hexDigit (n / 16), '0', '0'] = 4 := by
  revert n
  decide

section

variable {within : List Char → Quote → State} {behind : String → State}

theorem InQuotes.readFrom_cons (h : InQuotes within behind) {out out' : List Char}
    {place place' : Quote} {c : Char} (hc : quoteStep true out place c = .ok (some (out', place')))
    (cs : List Char) :
    readFrom (within out place) (c :: cs) = readFrom (within out' place') cs := by
  apply Reader.readFrom_cons
  rw [h, hc]
  rfl

/-- A backslash and a letter are read as the character that the letter stands for. -/
theorem InQuotes.readFrom_letter (h : InQuotes within behind) {out : List Char} {letter c : Char}
    (hc : quoteStep true out .escape letter = .ok (some (c :: out, .plain))) (cs : List Char) :
    readFrom (within out .plain) ('\\' :: letter :: cs) = readFrom (within (c :: out) .plain) cs :=
  (h.readFrom_cons rfl _).trans (h.readFrom_cons hc cs)

/-- A character in its escaped form is read as the character. -/
theorem InQuotes.readFrom_escapeChar (h : InQuotes within behind) (out : List Char) (c : Char)
    (cs : List Char) :
    readFrom (within out .plain) (escapeChar c ++ cs) = readFrom (within (c :: out) .plain) cs := by
  unfold escapeChar
  split_ifs with hquote hbackslash hb hf hn hr ht hcontrol
  · subst hquote
    exact h.readFrom_letter rfl cs
  · subst hbackslash
    exact h.readFrom_letter rfl cs
  · subst hb
    exact h.readFrom_letter rfl cs
  · subst hf
    exact h.readFrom_letter rfl cs
  · subst hn
    exact h.readFrom_letter rfl cs
  · subst hr
    exact h.readFrom_letter rfl cs
  · subst ht
    exact h.readFrom_letter rfl cs
  · obtain ⟨hunit, hthree, hfour⟩ := hexUnit?_hexDigit hcontrol
    have hdigit : quoteStep true out (.hex none ['0', '0']) (hexDigit (c.toNat / 16)) =
        .ok (some (out, .hex none [hexDigit (c.toNat / 16), '0', '0'])) := by
      simp [quoteStep, hthree]
    have hlast : quoteStep true out (.hex none [hexDigit (c.toNat / 16), '0', '0'])
        (hexDigit (c.toNat % 16)) = .ok (some (c :: out, .plain)) := by
      have htrail : isTrail c.toNat = false := by simp [isTrail]; omega
      have hlead : isLead c.toNat = false := by simp [isLead]; omega
      simp [quoteStep, hfour, hunit, takeUnit, htrail, hlead, Except.map]
    exact (h.readFrom_cons rfl _).trans <| (h.readFrom_cons rfl _).trans <|
      (h.readFrom_cons rfl _).trans <| (h.readFrom_cons rfl _).trans <|
      (h.readFrom_cons hdigit _).trans (h.readFrom_cons hlast _)
  · apply h.readFrom_cons
    simp [quoteStep, hquote, hbackslash, hcontrol]

theorem InQuotes.readFrom_escaped (h : InQuotes within behind) (chars out cs : List Char) :
    readFrom (within out .plain) (chars.flatMap escapeChar ++ '"' :: cs) =
      readFrom (behind (String.ofList (out.reverse ++ chars))) cs := by
  induction chars generalizing out with
  | nil =>
    apply Reader.readFrom_cons
    rw [h, List.append_nil]
    rfl
  | cons c chars ih =>
    rw [List.flatMap_cons, List.append_assoc, h.readFrom_escapeChar, ih, List.reverse_cons,
      List.append_assoc]
    rfl

/-- A text in quotes is read as the text. -/
theorem InQuotes.readFrom_quote (h : InQuotes within behind) {s : State}
    (hopen : step true s '"' = .ok (within [] .plain)) (text : String) (cs : List Char) :
    readFrom s (quote text ++ cs) = readFrom (behind text) cs := by
  rw [quote, List.cons_append, List.cons_append, Reader.readFrom_cons hopen, List.append_assoc,
    List.singleton_append, h.readFrom_escaped, List.reverse_nil, List.nil_append,
    String.ofList_toList]

end

/-! ## Numbers -/

/-- Characters that do not continue a number: there are none, or the first one is whitespace or
ends an item or a member. -/
def Delimits (cs : List Char) : Prop :=
  ∀ c ∈ cs.head?, isSpace c = true ∨ c = ',' ∨ c = ']' ∨ c = '\x7d'

theorem ne_of_isDigit {d c : Char} (hd : isDigit d = true) (hc : isDigit c = false) : d ≠ c := by
  rintro rfl
  rw [hd] at hc
  exact nomatch hc

theorem isSpace_of_isDigit {d : Char} (hd : isDigit d = true) : isSpace d = false := by
  have hne : ∀ c, isDigit c = false → d ≠ c := fun _ => ne_of_isDigit hd
  simp [isSpace, hne ' ' rfl, hne '\n' rfl, hne '\r' rfl, hne '\t' rfl]

theorem numberStep_of_delimiter {c : Char}
    (h : isSpace c = true ∨ c = ',' ∨ c = ']' ∨ c = '\x7d') (n : Numeral) :
    numberStep .zero n c = none ∧ numberStep .whole n c = none ∧ isDigit c = false := by
  have hcases : c = ' ' ∨ c = '\n' ∨ c = '\r' ∨ c = '\t' ∨ c = ',' ∨ c = ']' ∨ c = '\x7d' := by
    simpa [isSpace, or_assoc] using h
  rcases hcases with rfl | rfl | rfl | rfl | rfl | rfl | rfl <;> exact ⟨rfl, rfl, rfl⟩

/-- A number that may end is complete before characters that do not continue it. -/
theorem readFrom_number {stage : NumberStage} (hstage : stage = .zero ∨ stage = .whole)
    {n : Numeral} {v : Json} (hv : numberValue true n = .ok v) (around : List Frame)
    {cs : List Char} (hcs : Delimits cs) :
    readFrom ⟨.number stage n, around⟩ cs = readFrom (complete v around) cs := by
  have hsettle : settle true ⟨.number stage n, around⟩ cs.head? = .ok (complete v around) := by
    cases cs with
    | nil => rcases hstage with rfl | rfl <;> simp [settle, NumberStage.endsBefore,
        NumberStage.complete, hv, Except.map]
    | cons c cs =>
      obtain ⟨hzero, hwhole, hdigit⟩ := numberStep_of_delimiter (hcs c rfl) n
      rcases hstage with rfl | rfl <;> simp [settle, NumberStage.endsBefore,
        NumberStage.complete, hv, Except.map, hzero, hwhole, hdigit]
  cases cs with
  | nil =>
    show finish true _ = finish true _
    unfold finish
    rw [show settle true ⟨.number stage n, around⟩ none = _ from hsettle, settle_complete]
  | cons c cs =>
    have hstep : step true ⟨.number stage n, around⟩ c = step true (complete v around) c := by
      unfold step
      rw [show settle true ⟨.number stage n, around⟩ (some c) = _ from hsettle, settle_complete]
    simp only [readFrom, List.foldlM_cons, hstep]

/-- The digits of a number after its first one. -/
theorem readFrom_moreDigits {ds : List Char} (hds : ∀ d ∈ ds, isDigit d = true) (negative : Bool)
    (before : List Char) (around : List Frame) (cs : List Char) :
    readFrom ⟨.number .whole ⟨negative, before, [], none⟩, around⟩ (ds ++ cs) =
      readFrom ⟨.number .whole ⟨negative, ds.reverse ++ before, [], none⟩, around⟩ cs := by
  induction ds generalizing before with
  | nil => rfl
  | cons d ds ih =>
    have hd : isDigit d = true := hds d List.mem_cons_self
    have hstep : step true ⟨.number .whole ⟨negative, before, [], none⟩, around⟩ d =
        .ok ⟨.number .whole ⟨negative, d :: before, [], none⟩, around⟩ := by
      simp [step, settle, advance, numberStep, hd, bind, Except.bind]
    rw [List.cons_append, readFrom_cons hstep,
      ih (fun e he => hds e (List.mem_cons_of_mem d he)), List.reverse_cons, List.append_assoc]
    rfl

theorem digitsValue_toDigits (n : Nat) : digitsValue (Nat.toDigits 10 n) = n :=
  Nat.ofDigitChars_ten_toDigits

theorem isDigit_of_mem_toDigits {n : Nat} {d : Char} (h : d ∈ Nat.toDigits 10 n) :
    isDigit d = true := by
  have hdigit := Nat.isDigit_of_mem_toDigits (by decide) (Nat.le_refl 10) h
  simpa [Char.isDigit, isDigit, Char.le_def] using hdigit

/-- Digits start with a zero only if they are those of zero. -/
theorem toDigits_eq_cons (n : Nat) :
    ∃ d ds, Nat.toDigits 10 n = d :: ds ∧ (d = '0' → n = 0 ∧ ds = []) := by
  induction n using Nat.strongRecOn with
  | ind n ih =>
    rw [Nat.toDigits_eq_if (by decide)]
    split_ifs with hn
    · exact ⟨n.digitChar, [], rfl, fun h => ⟨Nat.digitChar_eq_zero.mp h, rfl⟩⟩
    · obtain ⟨d, ds, hds, hzero⟩ := ih (n / 10) (by omega)
      rw [hds]
      refine ⟨d, ds ++ [(n % 10).digitChar], rfl, fun h => ?_⟩
      have := (hzero h).1
      omega

/-- What the digits of a natural number with a sign stand for, within 64 bits. -/
theorem numberValue_toDigits {n : Nat} {i : Int} {negative : Bool}
    (hi : i = if negative then -(n : Int) else n) (hzero : negative = true → 0 < n)
    (hmin : Int64.minValue.toInt ≤ i) (hmax : i < UInt64.size) :
    numberValue true ⟨negative, (Nat.toDigits 10 n).reverse, [], none⟩ = .ok (.int i) := by
  have hinteger : (inOrder ⟨negative, (Nat.toDigits 10 n).reverse, [], none⟩).integer? =
      some i := by
    cases negative with
    | true =>
      obtain rfl : i = -n := hi
      simpa [inOrder, Numeral.integer?, Numeral.isWhole, digitsValue_toDigits, hzero] using hmin
    | false =>
      obtain rfl : i = n := hi
      have hlt : n < UInt64.size := by exact_mod_cast hmax
      simp [inOrder, Numeral.integer?, Numeral.isWhole, digitsValue_toDigits, hlt]
  unfold numberValue Numeral.toJson?
  rw [hinteger]

/-- The digits of a natural number, behind its sign. -/
theorem readFrom_digits {n : Nat} {i : Int} {negative : Bool}
    (hi : i = if negative then -(n : Int) else n) (hzero : negative = true → 0 < n)
    (hmin : Int64.minValue.toInt ≤ i) (hmax : i < UInt64.size) (around : List Frame)
    {cs : List Char} (hcs : Delimits cs) :
    readFrom ⟨.number .sign ⟨negative, [], [], none⟩, around⟩ (Nat.toDigits 10 n ++ cs) =
      readFrom (complete (.int i) around) cs := by
  have hvalue := numberValue_toDigits hi hzero hmin hmax
  obtain ⟨d, ds, hdigits, hlone⟩ := toDigits_eq_cons n
  have hall : ∀ e ∈ d :: ds, isDigit e = true := by
    rw [← hdigits]
    exact fun e he => isDigit_of_mem_toDigits he
  rw [hdigits] at hvalue ⊢
  rw [List.cons_append]
  by_cases hd : d = '0'
  · obtain ⟨-, rfl⟩ := hlone hd
    subst hd
    have hstep : step true ⟨.number .sign ⟨negative, [], [], none⟩, around⟩ '0' =
        .ok ⟨.number .zero ⟨negative, ['0'], [], none⟩, around⟩ := rfl
    rw [readFrom_cons hstep]
    exact readFrom_number (.inl rfl) hvalue around hcs
  · have hstep : step true ⟨.number .sign ⟨negative, [], [], none⟩, around⟩ d =
        .ok ⟨.number .whole ⟨negative, [d], [], none⟩, around⟩ := by
      simp [step, settle, advance, numberStep, hd, hall d List.mem_cons_self, bind, Except.bind]
    rw [readFrom_cons hstep,
      readFrom_moreDigits (fun e he => hall e (List.mem_cons_of_mem d he)),
      ← List.reverse_cons]
    exact readFrom_number (.inr rfl) hvalue around hcs

/-! ## Parts of values -/

theorem delimits_nil : Delimits [] :=
  fun _ h => nomatch h

theorem delimits_cons {c : Char} (h : isSpace c = true ∨ c = ',' ∨ c = ']' ∨ c = '\x7d')
    (cs : List Char) : Delimits (c :: cs) := by
  rintro d ⟨⟩
  exact h

theorem delimits_lineBreak (layout : Layout) {cs : List Char} (h : Delimits cs) :
    Delimits (layout.lineBreak ++ cs) := by
  cases layout with
  | line => exact h
  | block level => exact delimits_cons (.inl rfl) _

theorem Waits.readFrom_lineBreak {s : State} (h : Waits s) (layout : Layout) (cs : List Char) :
    Reader.readFrom s (layout.lineBreak ++ cs) = Reader.readFrom s cs :=
  h.readFrom (fun _ => isSpace_of_mem_lineBreak) cs

theorem step_value (around : List Frame) (c : Char) :
    step true ⟨.value, around⟩ c =
      if isSpace c then .ok ⟨.value, around⟩ else startValue true around c := rfl

theorem step_firstItem (around : List Frame) (c : Char) :
    step true ⟨.firstItem, around⟩ c =
      if isSpace c then .ok ⟨.firstItem, around⟩
      else if c = ']' then .ok (complete (.arr []) around)
      else startValue true (.array [] :: around) c := rfl

theorem step_afterItem (items : List Json) (around : List Frame) :
    step true ⟨.afterItem items, around⟩ ']' = .ok (complete (.arr items.reverse) around) := rfl

theorem step_afterMember (members : List (String × Json)) (around : List Frame) :
    step true ⟨.afterMember members, around⟩ '\x7d' =
      .ok (complete (.obj members.reverse) around) := rfl

theorem waits_value (around : List Frame) : Waits ⟨.value, around⟩ :=
  fun c hc => by rw [step_value, if_pos hc]

theorem waits_firstItem (around : List Frame) : Waits ⟨.firstItem, around⟩ :=
  fun c hc => by rw [step_firstItem, if_pos hc]

theorem waits_afterItem (items : List Json) (around : List Frame) :
    Waits ⟨.afterItem items, around⟩ :=
  fun _ hc => if_pos hc

theorem waits_firstName (around : List Frame) : Waits ⟨.firstName, around⟩ :=
  fun _ hc => if_pos hc

theorem waits_nextName (members : List (String × Json)) (around : List Frame) :
    Waits ⟨.nextName members, around⟩ :=
  fun _ hc => if_pos hc

theorem waits_afterMember (members : List (String × Json)) (around : List Frame) :
    Waits ⟨.afterMember members, around⟩ :=
  fun _ hc => if_pos hc

/-- What stands between a name and its value leads to the value. -/
theorem readFrom_colon (layout : Layout) (members : List (String × Json)) (name : String)
    (around : List Frame) (cs : List Char) :
    readFrom ⟨.colon members name, around⟩ (layout.colon ++ cs) =
      readFrom ⟨.value, .object members name :: around⟩ cs := by
  cases layout with
  | line => exact readFrom_cons rfl cs
  | block level => exact (readFrom_cons rfl _).trans (readFrom_cons rfl cs)

theorem openBracket_of_room {room : Nat} {around : List Frame} (hroom : 0 < room)
    (h : around.length + room ≤ maxDepth) (phase : Phase) :
    openBracket true around phase = .ok ⟨phase, around⟩ := by
  have hfull : ¬maxDepth ≤ around.length := by omega
  simp [openBracket, hfull]

theorem toList_toString_ofNat (n : Nat) :
    (toString (Int.ofNat n)).toList = Nat.toDigits 10 n := by
  show n.repr.toList = _
  rw [Nat.repr_eq_ofList_toDigits, String.toList_ofList]

theorem toList_toString_negSucc (n : Nat) :
    (toString (Int.negSucc n)).toList = '-' :: Nat.toDigits 10 (n + 1) := by
  show ("-" ++ (n + 1).repr).toList = _
  rw [Nat.repr_eq_ofList_toDigits, String.toList_append, String.toList_ofList,
    String.toList_ofList, List.singleton_append]

/-- No value starts with whitespace or with the bracket that ends an array. -/
theorem write_eq_cons (layout : Layout) {room : Nat} {v : Json} (h : v.Fits room) :
    ∃ c cs, v.write layout = c :: cs ∧ isSpace c = false ∧ c ≠ ']' := by
  cases v with
  | null => exact ⟨_, _, rfl, rfl, by decide⟩
  | bool b => cases b <;> exact ⟨_, _, rfl, rfl, by decide⟩
  | str s => exact ⟨_, _, rfl, rfl, by decide⟩
  | arr items => cases items <;> exact ⟨_, _, rfl, rfl, by decide⟩
  | obj members => cases members <;> exact ⟨_, _, rfl, rfl, by decide⟩
  | real n => exact h.elim
  | int n =>
    cases n with
    | ofNat n =>
      obtain ⟨d, ds, hdigits, -⟩ := toDigits_eq_cons n
      have hd : isDigit d = true := isDigit_of_mem_toDigits (hdigits ▸ List.mem_cons_self)
      exact ⟨d, ds, (toList_toString_ofNat n).trans hdigits, isSpace_of_isDigit hd,
        ne_of_isDigit hd rfl⟩
    | negSucc n => exact ⟨_, _, toList_toString_negSucc n, rfl, by decide⟩

theorem delimits_writeItems (layout : Layout) (items : List Json) {cs : List Char}
    (h : Delimits cs) : Delimits (Json.writeItems layout items ++ cs) := by
  cases items with
  | nil => exact h
  | cons v rest => exact delimits_cons (by decide) _

theorem delimits_writeMembers (layout : Layout) (members : List (String × Json))
    {cs : List Char} (h : Delimits cs) : Delimits (Json.writeMembers layout members ++ cs) := by
  cases members with
  | nil => exact h
  | cons m rest => exact delimits_cons (by decide) _

/-- An array whose first item follows is read as if its first item stood alone. -/
theorem readFrom_firstItem {around : List Frame} {c : Char} (hspace : isSpace c = false)
    (hbracket : c ≠ ']') (cs : List Char) :
    readFrom ⟨.firstItem, around⟩ (c :: cs) =
      readFrom ⟨.value, .array [] :: around⟩ (c :: cs) := by
  have hstep : step true ⟨.firstItem, around⟩ c = step true ⟨.value, .array [] :: around⟩ c := by
    rw [step_firstItem, step_value, hspace, if_neg hbracket]
    rfl
  simp only [readFrom, List.foldlM_cons, hstep]

/-! ## Values -/

/-- A value that starts with a digit is a number without a sign. -/
theorem step_value_of_isDigit {d : Char} (hd : isDigit d = true) (around : List Frame) :
    step true ⟨.value, around⟩ d =
      step true ⟨.number .sign ⟨false, [], [], none⟩, around⟩ d := by
  have hne : ∀ c, isDigit c = false → d ≠ c := fun _ => ne_of_isDigit hd
  have hnumber : ∃ stage n, numberStep .sign ⟨false, [], [], none⟩ d = some (stage, n) := by
    unfold numberStep
    dsimp only
    split_ifs <;> exact ⟨_, _, rfl⟩
  obtain ⟨stage, n, hnumber⟩ := hnumber
  have hvalue : startValue true around d = .ok ⟨.number stage n, around⟩ := by
    simp [startValue, hnumber, hne '"' rfl, hne '[' rfl, hne '\x7b' rfl, hne 'n' rfl, hne 't' rfl,
      hne 'f' rfl, hne '-' rfl]
  rw [step_value, isSpace_of_isDigit hd, if_neg Bool.false_ne_true, hvalue]
  simp [step, settle, advance, hnumber, bind, Except.bind]

theorem readFrom_int {n : Int} (hmin : Int64.minValue.toInt ≤ n) (hmax : n < UInt64.size)
    (around : List Frame) {cs : List Char} (hcs : Delimits cs) :
    readFrom ⟨.value, around⟩ ((toString n).toList ++ cs) =
      readFrom (complete (.int n) around) cs := by
  cases n with
  | ofNat n =>
    obtain ⟨d, ds, hdigits, -⟩ := toDigits_eq_cons n
    have hd : isDigit d = true := isDigit_of_mem_toDigits (hdigits ▸ List.mem_cons_self)
    have hplain : Int.ofNat n = if false = true then -(n : Int) else n := rfl
    have hread := readFrom_digits hplain nofun hmin hmax around hcs
    rw [hdigits, List.cons_append] at hread
    rw [toList_toString_ofNat, hdigits, List.cons_append, ← hread]
    simp only [readFrom, List.foldlM_cons, step_value_of_isDigit hd]
  | negSucc n =>
    have hminus : Int.negSucc n = if true = true then -((n + 1 : Nat) : Int) else (n + 1 : Nat) :=
      rfl
    rw [toList_toString_negSucc, List.cons_append, readFrom_cons rfl]
    exact readFrom_digits hminus (fun _ => Nat.succ_pos n) hmin hmax around hcs

mutual

/-- **Main theorem.** The characters that were written for a value are read as the value, inside
anything that leaves room for it and before anything that does not continue a number. -/
theorem readFrom_write (layout : Layout) {room : Nat} (around : List Frame)
    (hroom : around.length + room ≤ maxDepth) {cs : List Char} (hcs : Delimits cs) :
    ∀ v : Json, v.Fits room →
      readFrom ⟨.value, around⟩ (v.write layout ++ cs) = readFrom (complete v around) cs
  | .null, _ => by
    exact (readFrom_cons rfl _).trans <| (readFrom_cons rfl _).trans <|
      (readFrom_cons rfl _).trans (readFrom_cons rfl cs)
  | .bool true, _ => by
    exact (readFrom_cons rfl _).trans <| (readFrom_cons rfl _).trans <|
      (readFrom_cons rfl _).trans (readFrom_cons rfl cs)
  | .bool false, _ => by
    exact (readFrom_cons rfl _).trans <| (readFrom_cons rfl _).trans <|
      (readFrom_cons rfl _).trans <| (readFrom_cons rfl _).trans (readFrom_cons rfl cs)
  | .int n, h => by
    exact readFrom_int h.1 h.2 around hcs
  | .real n, h => h.elim
  | .str s, _ => (inQuotes_text around).readFrom_quote rfl s cs
  | .arr [], h => by
    have hopen : step true ⟨.value, around⟩ '[' = .ok ⟨.firstItem, around⟩ :=
      openBracket_of_room h.1 hroom .firstItem
    exact (readFrom_cons hopen _).trans (readFrom_cons rfl cs)
  | .arr (v :: rest), h => by
    obtain ⟨hpos, hv, hrest⟩ := h
    have hopen : step true ⟨.value, around⟩ '[' = .ok ⟨.firstItem, around⟩ :=
      openBracket_of_room hpos hroom .firstItem
    have hinner : (Frame.array [] :: around).length + (room - 1) ≤ maxDepth := by
      rw [List.length_cons]
      omega
    have hend : Delimits (layout.lineBreak ++ ']' :: cs) :=
      delimits_lineBreak layout (delimits_cons (by decide) cs)
    obtain ⟨c, chars, hchars, hspace, hbracket⟩ := write_eq_cons layout.inner hv
    rw [Json.write]
    simp only [List.cons_append, List.append_assoc, List.nil_append]
    rw [readFrom_cons hopen, (waits_firstItem around).readFrom_lineBreak, hchars, List.cons_append,
      readFrom_firstItem hspace hbracket, ← List.cons_append, ← hchars,
      readFrom_write layout.inner _ hinner (delimits_writeItems layout.inner rest hend) v hv]
    refine (readFrom_writeItems layout.inner around (by omega) hend rest [v] hrest).trans ?_
    rw [(waits_afterItem _ around).readFrom_lineBreak]
    exact readFrom_cons (by simp [step_afterItem]) cs
  | .obj [], h => by
    have hopen : step true ⟨.value, around⟩ '\x7b' = .ok ⟨.firstName, around⟩ :=
      openBracket_of_room h.1 hroom .firstName
    exact (readFrom_cons hopen _).trans (readFrom_cons rfl cs)
  | .obj ((name, v) :: rest), h => by
    obtain ⟨hpos, hv, hrest⟩ := h
    have hopen : step true ⟨.value, around⟩ '\x7b' = .ok ⟨.firstName, around⟩ :=
      openBracket_of_room hpos hroom .firstName
    have hinner : (Frame.object [] name :: around).length + (room - 1) ≤ maxDepth := by
      rw [List.length_cons]
      omega
    have hend : Delimits (layout.lineBreak ++ '\x7d' :: cs) :=
      delimits_lineBreak layout (delimits_cons (by decide) cs)
    rw [Json.write]
    simp only [List.cons_append, List.append_assoc, List.nil_append]
    rw [readFrom_cons hopen, (waits_firstName around).readFrom_lineBreak,
      (inQuotes_name [] around).readFrom_quote rfl, readFrom_colon,
      readFrom_write layout.inner _ hinner (delimits_writeMembers layout.inner rest hend) v hv]
    refine (readFrom_writeMembers layout.inner around (by omega) hend rest [(name, v)]
      hrest).trans ?_
    rw [(waits_afterMember _ around).readFrom_lineBreak]
    exact readFrom_cons (by simp [step_afterMember]) cs

/-- The items after the first one. -/
theorem readFrom_writeItems (layout : Layout) {room : Nat} (around : List Frame)
    (hroom : around.length + 1 + room ≤ maxDepth) {cs : List Char} (hcs : Delimits cs) :
    ∀ (items before : List Json), Json.FitsItems room items →
      readFrom ⟨.afterItem before, around⟩ (Json.writeItems layout items ++ cs) =
        readFrom ⟨.afterItem (items.reverse ++ before), around⟩ cs
  | [], _, _ => rfl
  | v :: rest, before, h => by
    have hcomma : step true ⟨.afterItem before, around⟩ ',' =
        .ok ⟨.value, .array before :: around⟩ := rfl
    rw [Json.writeItems]
    simp only [List.cons_append, List.append_assoc]
    rw [readFrom_cons hcomma, (waits_value _).readFrom_lineBreak,
      readFrom_write layout _ hroom (delimits_writeItems layout rest hcs) v h.1]
    refine (readFrom_writeItems layout around hroom hcs rest (v :: before) h.2).trans ?_
    rw [List.reverse_cons, List.append_assoc, List.singleton_append]

/-- The members after the first one. -/
theorem readFrom_writeMembers (layout : Layout) {room : Nat} (around : List Frame)
    (hroom : around.length + 1 + room ≤ maxDepth) {cs : List Char} (hcs : Delimits cs) :
    ∀ members before : List (String × Json), Json.FitsMembers room members →
      readFrom ⟨.afterMember before, around⟩ (Json.writeMembers layout members ++ cs) =
        readFrom ⟨.afterMember (members.reverse ++ before), around⟩ cs
  | [], _, _ => rfl
  | (name, v) :: rest, before, h => by
    have hcomma : step true ⟨.afterMember before, around⟩ ',' =
        .ok ⟨.nextName before, around⟩ := rfl
    rw [Json.writeMembers]
    simp only [List.cons_append, List.append_assoc]
    rw [readFrom_cons hcomma, (waits_nextName _ _).readFrom_lineBreak,
      (inQuotes_name before around).readFrom_quote rfl, readFrom_colon,
      readFrom_write layout _ hroom (delimits_writeMembers layout rest hcs) v h.1]
    refine (readFrom_writeMembers layout around hroom hcs rest ((name, v) :: before) h.2).trans ?_
    rw [List.reverse_cons, List.append_assoc, List.singleton_append]

end

end Reader

/-! ## Texts -/

namespace Json

theorem parse_write (layout : Layout) {room : Nat} (hroom : room ≤ Reader.maxDepth) {v : Json}
    (h : v.Fits room) : parse (String.ofList (v.write layout)) = .ok v := by
  have hread := Reader.readFrom_write layout [] (by simpa using hroom) Reader.delimits_nil v h
  rw [List.append_nil] at hread
  unfold parse
  rw [String.toList_ofList]
  exact hread

/-- The text of a value on one line spells the value. -/
theorem parse_compact {room : Nat} (hroom : room ≤ Reader.maxDepth) {v : Json}
    (h : v.Fits room) : parse v.compact = .ok v :=
  parse_write .line hroom h

/-- The text of a value on many lines spells the value. -/
theorem parse_pretty {room : Nat} (hroom : room ≤ Reader.maxDepth) {v : Json}
    (h : v.Fits room) : parse v.pretty = .ok v :=
  parse_write (.block 0) hroom h

end Json

end ArchDoc
