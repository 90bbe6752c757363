import ArchDoc.Journal

/-!
# Filters of the journal

A filter is a list of directives with commas between them. A directive names the greatest level
to show, perhaps only for the topics whose addresses start with a text. Of the directives that
concern a topic the one with the longest text decides, and of those the last.

Main definitions:

* `Directive`, `Filter`: what is shown.
* `Filter.ofText?`: the filter of a text.
* `Filter.shows`: whether an entry is shown.
-/

namespace ArchDoc.Journal

/-- The greatest level to show for topics whose addresses start with a text; a level of zero shows
nothing. A directive that concerns spans of time instead of topics has no level. -/
structure Directive where
  address : String
  rank : Option Nat

/-- The directives in the order in which they are given. -/
abbrev Filter := List Directive

namespace Filter

/-- The filter that shows what is at least as severe as a level. -/
def ofLevel (level : Level) : Filter :=
  [⟨"", some level.rank⟩]

/-! ## Reading -/

/-- A letter of the English alphabet in lower case. -/
def lower (c : Char) : Char :=
  if 'A' ≤ c && c ≤ 'Z' then Char.ofNat (c.toNat + 32) else c

/-- The rank of a level that is spelled as a word in any case, or as a number up to five. -/
def rank? (text : String) : Option Nat :=
  let cs := text.toList
  if !cs.isEmpty && cs.all (fun c => '0' ≤ c && c ≤ '9') then
    let n := cs.foldl (fun n c => 10 * n + (c.toNat - '0'.toNat)) 0
    if n ≤ 5 then some n else none
  else
    match String.ofList (cs.map lower) with
    | "off" => some 0
    | "error" => some 1
    | "warn" => some 2
    | "info" => some 3
    | "debug" => some 4
    | "trace" => some 5
    | _ => none

/-- The rank that shows everything. -/
def everything : Nat := Level.trace.rank

/-- Whether an address may start with a character. -/
def startsAddress (c : Char) : Bool :=
  c.isAlphanum || c == '-' || c == ':' || c == '_' || 0x80 ≤ c.toNat

/-- The directive of a text. A text alone is a level or else an address of which everything is
shown. -/
def directive? (text : String) : Option Directive :=
  let cs := text.toList
  match cs.dropWhile (· == ' ') with
  | [] => none
  | c :: _ =>
    if c == '[' then some ⟨"", none⟩
    else if !startsAddress c then none
    else
      let address := String.ofList (cs.takeWhile fun c => c != '=' && c != '[')
      match cs.dropWhile fun c => c != '=' && c != '[' with
      | [] =>
        match rank? text with
        | some rank => some ⟨"", some rank⟩
        | none => some ⟨text, some everything⟩
      | '=' :: [] => some ⟨address, some everything⟩
      | '=' :: level => (rank? (String.ofList level)).map fun rank => ⟨address, some rank⟩
      | _ => some ⟨address, none⟩

/-- The texts between commas. -/
def clauses : List Char → List (List Char)
  | [] => [[]]
  | c :: cs =>
    if c == ',' then [] :: clauses cs
    else
      match clauses cs with
      | [] => [[c]]
      | clause :: rest => (c :: clause) :: rest

/-- The filter of a text, if all its directives are well-formed. A text without directives shows
errors only. -/
def ofText? (text : String) : Option Filter := do
  let directives ← ((clauses text.toList).filter (!·.isEmpty)).mapM fun clause =>
    directive? (String.ofList clause)
  return if directives.isEmpty then ofLevel .error else directives

/-- The filter of a setting: that of the text if it is given and well-formed, and else the one
that shows what is at least as severe as `info`. -/
def ofSetting (text : Option String) : Filter :=
  (text.bind ofText?).getD (ofLevel .info)

/-! ## Showing -/

/-- The greatest level that a filter shows of a topic, from the directives that concern it. -/
def limit (filter : Filter) (topic : Topic) : Nat :=
  let concerns := filter.filterMap fun d =>
    if d.address.toList.isPrefixOf topic.address.toList then
      d.rank.map fun rank => (d.address.length, rank)
    else none
  (concerns.foldl (fun best d => if best.1 ≤ d.1 then d else best) (0, 0)).2

/-- Whether an entry is shown. -/
def shows (filter : Filter) (entry : Entry) : Bool :=
  entry.level.rank ≤ filter.limit entry.topic

end Filter

end ArchDoc.Journal
