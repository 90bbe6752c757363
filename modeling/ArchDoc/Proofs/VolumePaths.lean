import ArchDoc.Proofs.Volumes

/-!
# Ways through a volume

Following a path only looks at directories and at symbolic links, so it leads to the same place
before and after anything that leaves these alone. The parts of a path that lead to its last part
can be followed on their own: whatever comes behind them is followed from the same directory.

Main definitions:

* `Volume.Leads`: a change that leaves the ways of paths as they were.
* `Volume.Reaches`: parts of a path that lead to a directory.
* `Volume.place?`, `Volume.location?`: the place of the last name of a path, and the location that
  the path stands for.

Results:

* `Leads.locate`: paths lead where they led before.
* `arrive_eq`: without a link at its end a path arrives where it approaches.
* `reaches_of_approach`: the parts before the last name lead to the directory where it lies.
* `resolve_down`: where there are no links, names only lead down.
-/

namespace ArchDoc.Volume

open FileTree (Last maxName start named refused)

variable {v v' : Volume} {followLast isLast slash : Bool} {links : Nat} {location l : Location}
  {parts rest : List String} {part path : String} {result : Location × Last}

/-! ## One part -/

/-- Where a symbolic link leads when so many links are left. -/
def onward (v : Volume) (followLast : Bool) :
    Nat → Location → List String → Bool → Except OsError (Location × Last)
  | 0 => fun _ _ _ => .error .tooManyLinks
  | links + 1 => v.resolve followLast links

theorem resolve_nil (links : Nat) :
    v.resolve followLast links location [] slash = .ok (location, .known location) := by
  cases links <;> rfl

/-- Following a path begins with its first part. -/
theorem resolve_cons (links : Nat) :
    v.resolve followLast links location (part :: rest) slash =
      match v.turn followLast location part rest.isEmpty with
      | .on next => v.resolve followLast links next rest slash
      | .along target =>
        v.onward followLast links (start location target) (named target ++ rest)
          (slash || (rest.isEmpty && endsInSlash target))
      | .arrived => .ok (location, .name part slash)
      | .lost e => .error e := by
  cases links <;> rfl

/-- Parts are followed one by one, and those of a link with one link less. -/
theorem resolve_induction {motive : Nat → Location → List String → Bool → Prop}
    (nil : ∀ links location slash, motive links location [] slash)
    (cons : ∀ links location part rest slash, (∀ next, motive links next rest slash) →
      (∀ fewer, links = fewer + 1 → ∀ next parts slash, motive fewer next parts slash) →
      motive links location (part :: rest) slash)
    (links : Nat) (location : Location) (parts : List String) (slash : Bool) :
    motive links location parts slash := by
  induction links generalizing location parts slash with
  | zero =>
    induction parts generalizing location with
    | nil => exact nil _ _ _
    | cons part rest ih =>
      exact cons _ _ _ _ _ ih fun fewer h => absurd h (Nat.succ_ne_zero fewer).symm
  | succ links ihLinks =>
    induction parts generalizing location with
    | nil => exact nil _ _ _
    | cons part rest ih =>
      refine cons _ _ _ _ _ ih fun fewer h => ?_
      obtain rfl := Nat.succ_injective h
      exact ihLinks

/-- What a part can say: to stay, to go up, to go down, to follow a symbolic link that is there, to
arrive with the last part, or to give up. -/
inductive Says (v : Volume) (location : Location) (part : String) (isLast : Bool) :
    Turn → Prop where
  | dot (hpart : part = ".") : Says v location part isLast (.on location)
  | up (hpart : part = "..") : Says v location part isLast (.on location.dropLast)
  | down (hpart : part ≠ "." ∧ part ≠ "..") :
      Says v location part isLast (.on (location ++ [part]))
  | along {target : String} (hlink : v.link? (location ++ [part]) = some target) :
      Says v location part isLast (.along target)
  | arrived (hlast : isLast = true) : Says v location part isLast .arrived
  | lost (e : OsError) : Says v location part isLast (.lost e)

theorem says_turn (v : Volume) (followLast : Bool) (location : Location) (part : String)
    (isLast : Bool) : Says v location part isLast (v.turn followLast location part isLast) := by
  unfold turn
  split_ifs with hdot hup hlong
  · exact .dot hdot
  · exact .up hup
  · exact .lost _
  · unfold turnAt
    cases isLast with
    | true =>
      cases followLast with
      | true =>
        cases hlink : v.link? (location ++ [part]) with
        | none => exact .arrived rfl
        | some target => exact .along hlink
      | false => exact .arrived rfl
    | false =>
      cases hnode : v.lookup (location ++ [part]) with
      | none => exact .lost _
      | some node =>
        cases node with
        | file number => exact .lost _
        | link target => exact .along (link?_eq_some_iff.mpr hnode)
        | directory =>
          dsimp only [Bool.false_eq_true, if_false]
          cases v.refusal (.enter (location ++ [part])) with
          | none => exact .down ⟨hdot, hup⟩
          | some e => exact .lost e

/-- Before the last part nothing is arrived at. -/
theorem turn_ne_arrived : v.turn followLast location part false ≠ .arrived := by
  intro hturn
  have hsays := says_turn v followLast location part false
  rw [hturn] at hsays
  cases hsays with
  | arrived hlast => exact Bool.false_ne_true hlast

/-! ## Changes off the way -/

/-- A change that keeps directories and keeps and makes no symbolic links. -/
structure Leads (before after : Volume) : Prop where
  here : after.here = before.here
  refusal : after.refusal = before.refusal
  directory : ∀ {l}, before.lookup l = some .directory → after.lookup l = some .directory
  link : ∀ l, after.link? l = before.link? l

namespace Leads

theorem refl (v : Volume) : Leads v v :=
  ⟨rfl, rfl, fun h => h, fun _ => rfl⟩

theorem trans {a b c : Volume} (hab : Leads a b) (hbc : Leads b c) : Leads a c where
  here := hbc.here.trans hab.here
  refusal := hbc.refusal.trans hab.refusal
  directory h := hbc.directory (hab.directory h)
  link l := (hbc.link l).trans (hab.link l)

/-- A name that leads somewhere says the same. -/
theorem turnAt_eq_or_lost (h : Leads v v') (followLast : Bool) (location : Location)
    (part : String) (isLast : Bool) :
    v'.turnAt followLast location part isLast = v.turnAt followLast location part isLast ∨
      ∃ e, v.turnAt followLast location part isLast = .lost e := by
  unfold turnAt
  rw [h.link, h.refusal]
  cases isLast with
  | true => exact .inl rfl
  | false =>
    cases hnode : v.lookup (location ++ [part]) with
    | none => exact .inr ⟨_, rfl⟩
    | some node =>
      cases node with
      | file number => exact .inr ⟨_, rfl⟩
      | directory =>
        rw [h.directory hnode]
        exact .inl rfl
      | link target =>
        have hlink := (h.link _).trans (link?_eq_some_iff.mpr hnode)
        rw [link?_eq_some_iff.mp hlink]
        exact .inl rfl

theorem turn_eq_or_lost (h : Leads v v') (followLast : Bool) (location : Location) (part : String)
    (isLast : Bool) :
    v'.turn followLast location part isLast = v.turn followLast location part isLast ∨
      ∃ e, v.turn followLast location part isLast = .lost e := by
  unfold turn
  split_ifs
  · exact .inl rfl
  · exact .inl rfl
  · exact .inl rfl
  · exact h.turnAt_eq_or_lost followLast location part isLast

/-- A way that leads somewhere leads to the same place. -/
theorem resolve (h : Leads v v')
    (hresult : v.resolve followLast links location parts slash = .ok result) :
    v'.resolve followLast links location parts slash = .ok result := by
  induction links, location, parts, slash using resolve_induction with
  | nil links location slash => rwa [resolve_nil] at hresult ⊢
  | cons links location part rest slash ihRest ihLink =>
    rw [resolve_cons] at hresult ⊢
    rcases h.turn_eq_or_lost followLast location part rest.isEmpty with hsame | ⟨e, hlost⟩
    · rw [hsame]
      cases hturn : v.turn followLast location part rest.isEmpty with
      | on next =>
        rw [hturn] at hresult
        exact ihRest next hresult
      | along target =>
        rw [hturn] at hresult
        cases links with
        | zero => exact nomatch hresult
        | succ links => exact ihLink links rfl _ _ _ hresult
      | arrived =>
        rw [hturn] at hresult
        exact hresult
      | lost e =>
        rw [hturn] at hresult
        exact nomatch hresult
    · rw [hlost] at hresult
      exact nomatch hresult

/-- Paths lead where they led before. -/
theorem locate (h : Leads v v') (hresult : v.locate followLast path = .ok result) :
    v'.locate followLast path = .ok result := by
  unfold Volume.locate at hresult ⊢
  rw [h.here]
  cases hrefused : refused path with
  | some cause =>
    rw [hrefused] at hresult
    exact nomatch hresult
  | none =>
    rw [hrefused] at hresult
    dsimp only at hresult ⊢
    cases hway : v.resolve followLast maxLinks (start v.here path) (named path)
        (endsInSlash path) with
    | error e =>
      rw [hway] at hresult
      exact nomatch hresult
    | ok found =>
      rw [hway] at hresult
      rw [h.resolve hway]
      exact hresult

end Leads

/-- Neither a directory nor a symbolic link is there, so no path leads through. -/
structure Bare (v : Volume) (location : Location) : Prop where
  not_directory : v.lookup location ≠ some .directory
  not_link : v.link? location = none

theorem bare_of_none (h : v.lookup l = none) : v.Bare l :=
  ⟨by simp [h], by simp [link?, h]⟩

theorem bare_of_file {number : Nat} (h : v.lookup l = some (.file number)) : v.Bare l :=
  ⟨by simp [h], by simp [link?, h]⟩

theorem link?_congr (h : v'.lookup l = v.lookup l) : v'.link? l = v.link? l := by
  unfold link?
  rw [h]

theorem Bare.congr (h : v.Bare l) (hsame : v'.lookup l = v.lookup l) : v'.Bare l :=
  ⟨fun hdirectory => h.not_directory (hsame.symm.trans hdirectory),
    (link?_congr hsame).trans h.not_link⟩

/-- Changes where no path leads through make no difference to paths. -/
theorem leads_of_bare (hhere : v'.here = v.here) (hrefusal : v'.refusal = v.refusal)
    (h : ∀ l, v'.lookup l = v.lookup l ∨ v.Bare l ∧ v'.Bare l) : Leads v v' where
  here := hhere
  refusal := hrefusal
  directory {l} hl := by
    rcases h l with hsame | ⟨hbare, _⟩
    · exact hsame.trans hl
    · exact absurd hl hbare.not_directory
  link l := by
    rcases h l with hsame | ⟨hbare, hbare'⟩
    · exact link?_congr hsame
    · exact hbare'.not_link.trans hbare.not_link.symm

/-! ## Links at the end -/

theorem turnAt_true (v : Volume) (location : Location) (part : String) (isLast : Bool) :
    v.turnAt true location part isLast = v.turnAt false location part isLast ∨
      v.turnAt false location part isLast = .arrived ∧ v.link? (location ++ [part]) ≠ none := by
  unfold turnAt
  cases isLast with
  | false => exact .inl rfl
  | true =>
    cases v.link? (location ++ [part]) with
    | none => exact .inl rfl
    | some target => exact .inr ⟨rfl, Option.some_ne_none _⟩

theorem turn_true (v : Volume) (location : Location) (part : String) (isLast : Bool) :
    v.turn true location part isLast = v.turn false location part isLast ∨
      v.turn false location part isLast = .arrived ∧ v.link? (location ++ [part]) ≠ none := by
  unfold turn
  split_ifs
  · exact .inl rfl
  · exact .inl rfl
  · exact .inl rfl
  · exact turnAt_true v location part isLast

/-- A way that does not end at a symbolic link is the same when links at the end are followed. -/
theorem resolve_true
    (hend : ∀ dir name s, v.resolve false links location parts slash = .ok (dir, .name name s) →
      v.link? (dir ++ [name]) = none) :
    v.resolve true links location parts slash = v.resolve false links location parts slash := by
  induction links, location, parts, slash using resolve_induction with
  | nil links location slash => rw [resolve_nil, resolve_nil]
  | cons links location part rest slash ihRest ihLink =>
    rw [resolve_cons] at hend ⊢
    rw [resolve_cons]
    rcases turn_true v location part rest.isEmpty with hsame | ⟨harrived, hlink⟩
    · rw [hsame]
      cases hturn : v.turn false location part rest.isEmpty with
      | on next =>
        rw [hturn] at hend
        exact ihRest next hend
      | along target =>
        rw [hturn] at hend
        cases links with
        | zero => rfl
        | succ links => exact ihLink links rfl _ _ _ hend
      | arrived => rfl
      | lost e => rfl
    · rw [harrived] at hend
      exact absurd (hend _ _ _ rfl) hlink

/-! ## Parts that lead to a directory -/

/-- Parts that lead from one directory to another one, and so many links that are left there:
whatever stands behind them is followed from there. -/
def Reaches (v : Volume) (links : Nat) (location : Location) (parts : List String) (left : Nat)
    (dir : Location) : Prop :=
  ∀ followLast more slash, more ≠ [] →
    v.resolve followLast links location (parts ++ more) slash =
      v.resolve followLast left dir more slash

/-- Before the last part, it makes no difference whether links at the end are followed. -/
theorem turn_of_not_last (followLast : Bool) (location : Location) (part : String) :
    v.turn followLast location part false = v.turn false location part false := rfl

theorem resolve_dot (links : Nat) :
    v.resolve followLast links location ["."] slash = .ok (location, .known location) := by
  have hturn : v.turn followLast location "." true = .on location := if_pos rfl
  rw [resolve_cons, List.isEmpty_nil, hturn]
  exact resolve_nil links

/-- The last part of a path is a name, or it stands for a directory. -/
theorem resolve_singleton (h : v.resolve false links location [part] slash = .ok result) :
    (part ≠ "." ∧ part ≠ "..") ∧ result = (location, .name part slash) ∨
      (part = "." ∨ part = "..") ∧ ∃ l, result = (l, .known l) := by
  rw [resolve_cons] at h
  unfold turn at h
  split_ifs at h with hdot hup hlong
  · exact .inr ⟨.inl hdot, _, (Except.ok.inj ((resolve_nil links).symm.trans h)).symm⟩
  · exact .inr ⟨.inr hup, _, (Except.ok.inj ((resolve_nil links).symm.trans h)).symm⟩
  · exact .inl ⟨⟨hdot, hup⟩, (Except.ok.inj h).symm⟩

/-- The parts before the last one lead to the directory where the last one lies, if that is a
name. -/
theorem resolve_concat
    (h : v.resolve false links location (parts ++ [part]) slash = .ok result) :
    (part ≠ "." ∧ part ≠ "..") ∧ result.2 = .name part slash ∧
        (∃ left, v.Reaches links location parts left result.1) ∨
      (part = "." ∨ part = "..") ∧ ∃ l, result = (l, .known l) := by
  induction links, location, parts, slash using resolve_induction with
  | nil links location slash =>
    refine (resolve_singleton h).imp_left ?_
    rintro ⟨hname, rfl⟩
    exact ⟨hname, rfl, links, fun _ _ _ _ => rfl⟩
  | cons links location first rest slash ihRest ihLink =>
    have hlast : ∀ more : List String, more ≠ [] → (rest ++ more).isEmpty = false := by
      intro more hmore
      simp [hmore]
    rw [List.cons_append, resolve_cons, hlast _ (List.cons_ne_nil _ _)] at h
    cases hturn : v.turn false location first false with
    | on next =>
      rw [hturn] at h
      refine (ihRest next h).imp_left ?_
      rintro ⟨hname, hfound, left, hreaches⟩
      refine ⟨hname, hfound, left, fun followLast more slash hmore => ?_⟩
      rw [List.cons_append, resolve_cons, hlast more hmore, turn_of_not_last, hturn]
      exact hreaches followLast more slash hmore
    | along target =>
      rw [hturn] at h
      cases links with
      | zero => exact nomatch h
      | succ links =>
        simp only [Bool.false_and, Bool.or_false, ← List.append_assoc] at h
        refine (ihLink links rfl _ _ _ h).imp_left ?_
        rintro ⟨hname, hfound, left, hreaches⟩
        refine ⟨hname, hfound, left, fun followLast more slash hmore => ?_⟩
        rw [List.cons_append, resolve_cons, hlast more hmore, turn_of_not_last, hturn,
          ← hreaches followLast more slash hmore, List.append_assoc]
        simp only [Bool.false_and, Bool.or_false]
        rfl
    | arrived => exact absurd hturn turn_ne_arrived
    | lost e =>
      rw [hturn] at h
      exact nomatch h

/-! ## Parts that do not count -/

/-- A single dot on the way leads nowhere. -/
theorem resolve_filter {more : List String} (hmore : more ≠ [])
    (hparts : ∀ part ∈ parts, part ≠ "") :
    v.resolve followLast links location (parts ++ more) slash =
      v.resolve followLast links location (parts.filter Path.counts ++ more) slash := by
  induction links, location, parts, slash using resolve_induction with
  | nil links location slash => rfl
  | cons links location first rest slash ihRest ihLink =>
    obtain ⟨hfirst, hrest⟩ := List.forall_mem_cons.mp hparts
    have hlast : ∀ ps : List String, (ps ++ more).isEmpty = false := by
      intro ps
      simp [hmore]
    by_cases hdot : first = "."
    · have hcounts : ¬Path.counts first = true := by simp [Path.counts, hdot]
      have hturn : v.turn followLast location first (rest ++ more).isEmpty = .on location :=
        if_pos hdot
      rw [List.filter_cons_of_neg hcounts, List.cons_append, resolve_cons, hturn]
      exact ihRest location hrest
    · have hcounts : Path.counts first = true := by simp [Path.counts, hdot, hfirst]
      rw [List.filter_cons_of_pos hcounts, List.cons_append, List.cons_append, resolve_cons,
        resolve_cons, hlast, hlast]
      cases v.turn followLast location first false with
      | on next => exact ihRest next hrest
      | along target =>
        cases links with
        | zero => rfl
        | succ links =>
          have htarget : ∀ part ∈ named target, part ≠ "" := fun _ => FileTree.ne_empty_of_mem_named
          have hboth : ∀ ps : List String, (∀ part ∈ ps, part ≠ "") →
              ∀ part ∈ named target ++ ps, part ≠ "" := by
            intro ps hps part hpart
            exact (List.mem_append.mp hpart).elim (htarget part) (hps part)
          have hsame : (named target ++ rest).filter Path.counts =
              (named target ++ rest.filter Path.counts).filter Path.counts := by
            simp only [List.filter_append, List.filter_filter, Bool.and_self]
          dsimp only [onward]
          rw [← List.append_assoc, ← List.append_assoc,
            ihLink links rfl _ _ _ (hboth _ hrest), hsame,
            ← ihLink links rfl _ _ _ (hboth _ fun part hpart =>
              hrest part (List.mem_filter.mp hpart).1)]
      | arrived => rfl
      | lost e => rfl

/-! ## Downwards -/

/-- A name that is not the last one leads down, unless it is that of a symbolic link. -/
theorem resolve_name (hpart : Path.counts part = true ∧ part ≠ "..") (hrest : rest ≠ [])
    (hlink : v.link? (location ++ [part]) = none)
    (h : v.resolve followLast links location (part :: rest) slash = .ok result) :
    v.resolve followLast links (location ++ [part]) rest slash = .ok result := by
  have hsays := says_turn v followLast location part rest.isEmpty
  rw [resolve_cons] at h
  generalize v.turn followLast location part rest.isEmpty = turn at h hsays
  cases hsays with
  | dot hdot => exact absurd hpart.1 (by simp [Path.counts, hdot])
  | up hup => exact absurd hup hpart.2
  | down _ => exact h
  | along htarget => exact absurd (hlink.symm.trans htarget) (Option.some_ne_none _).symm
  | arrived hlast => exact absurd (List.isEmpty_iff.mp hlast) hrest
  | lost e => cases h

/-- Where there are no symbolic links, names lead down. -/
theorem resolve_down (hparts : ∀ part ∈ parts, Path.counts part = true ∧ part ≠ "..")
    (hrest : rest ≠ []) (hlinks : ∀ l, location <+: l → v.link? l = none)
    (h : v.resolve followLast links location (parts ++ rest) slash = .ok result) :
    v.resolve followLast links (location ++ parts) rest slash = .ok result := by
  induction parts generalizing location with
  | nil => rwa [List.append_nil]
  | cons part parts ih =>
    obtain ⟨hpart, hparts⟩ := List.forall_mem_cons.mp hparts
    have hnext := resolve_name hpart (List.append_ne_nil_of_right_ne_nil parts hrest)
      (hlinks _ (List.prefix_append _ _)) h
    have hdown := ih hparts (fun l hl => hlinks l ((List.prefix_append _ _).trans hl)) hnext
    rwa [List.append_assoc, List.singleton_append] at hdown

/-! ## The last name -/

/-- Where the last name of a path lies, if the path can be followed to it. -/
def place? (v : Volume) (path : String) : Option Location :=
  match v.approach path with
  | .ok (dir, .name name _) => some (dir ++ [name])
  | _ => none

theorem place?_of_approach {dir : Location} {name : String}
    (h : v.approach path = .ok (dir, .name name slash)) : v.place? path = some (dir ++ [name]) := by
  rw [place?, h]

theorem place?_eq_some_iff :
    v.place? path = some l ↔
      ∃ dir name slash, v.approach path = .ok (dir, .name name slash) ∧ l = dir ++ [name] := by
  constructor
  · intro h
    unfold place? at h
    split at h
    · next dir name slash happroach => exact ⟨dir, name, slash, happroach, (Option.some.inj h).symm⟩
    · exact nomatch h
  · rintro ⟨dir, name, slash, happroach, rfl⟩
    exact place?_of_approach happroach

theorem Leads.place? (h : Leads v v') (hplace : v.place? path = some l) :
    v'.place? path = some l := by
  obtain ⟨dir, name, slash, happroach, rfl⟩ := place?_eq_some_iff.mp hplace
  exact place?_of_approach (h.locate happroach)

theorem resolve_of_locate (h : v.locate followLast path = .ok result) :
    refused path = none ∧
      v.resolve followLast maxLinks (start v.here path) (named path) (endsInSlash path) =
        .ok result := by
  unfold locate at h
  cases hrefused : refused path with
  | some cause =>
    rw [hrefused] at h
    exact nomatch h
  | none =>
    rw [hrefused] at h
    cases hway : v.resolve followLast maxLinks (start v.here path) (named path)
        (endsInSlash path) with
    | error e =>
      rw [hway] at h
      exact nomatch h
    | ok found =>
      rw [hway] at h
      exact ⟨rfl, congrArg _ (Except.ok.inj h)⟩

/-- Without a symbolic link at its end a path arrives where it approaches. -/
theorem arrive_eq (hend : ∀ l, v.place? path = some l → v.link? l = none) :
    v.arrive path = v.approach path := by
  unfold arrive approach locate
  cases hrefused : refused path with
  | some cause => rfl
  | none =>
    dsimp only
    rw [resolve_true]
    intro dir name s hway
    have happroach : v.approach path = .ok (dir, .name name s) := by
      rw [approach, locate, hrefused]
      dsimp only
      rw [hway]
      rfl
    exact hend _ (place?_of_approach happroach)

/-- The location that a path stands for: that of its last name, or a directory that is known without
a name. -/
def location? (v : Volume) (path : String) : Option Location :=
  match v.approach path with
  | .ok (dir, .name name _) => some (dir ++ [name])
  | .ok (_, .known l) => some l
  | .error _ => none

theorem location?_of_place? (h : v.place? path = some l) : v.location? path = some l := by
  obtain ⟨dir, name, slash, happroach, rfl⟩ := place?_eq_some_iff.mp h
  rw [location?, happroach]

/-- The parts before the last name of a path lead to the directory where it lies. -/
theorem reaches_of_approach {dir : Location} {name : String}
    (h : v.approach path = .ok (dir, .name name slash)) :
    ∃ before left, named path = before ++ [name] ∧ name ≠ "." ∧ name ≠ ".." ∧
      slash = endsInSlash path ∧ v.Reaches maxLinks (start v.here path) before left dir := by
  obtain ⟨_, hway⟩ := resolve_of_locate h
  rcases List.eq_nil_or_concat' (named path) with hnil | ⟨before, part, hnamed⟩
  · rw [hnil, resolve_nil] at hway
    exact nomatch hway
  · rw [hnamed] at hway
    rcases resolve_concat hway with ⟨⟨hdot, hup⟩, hfound, left, hreaches⟩ | ⟨_, l, hknown⟩
    · cases hfound
      exact ⟨before, left, hnamed, hdot, hup, rfl, hreaches⟩
    · exact nomatch (Prod.mk.inj hknown).2

end ArchDoc.Volume
