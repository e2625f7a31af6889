import LoxLex.Directory
import LoxLex.Failure
import Mathlib.Data.List.Basic
import Mathlib.Tactic.Lemma

set_option relaxedAutoImplicit false
set_option autoImplicit false

/-!
# Paths through a directory

Where the names on a path lead does not depend on what lies there: each name leads from a place to
the next one. What lies at these places decides whether the path can be followed. Every place that
it passes through has to be a directory, and the first one that is none is the reason why it cannot
be followed.

## Main definitions

* `LoxLex.IsPlainName` — names that lead into a directory.
* `LoxLex.Place.walk` — where names lead.
* `LoxLex.Directory.Passes` — names that lead through directories only.
* `LoxLex.Directory.IsTree` — nothing lies below a file.

## Main results

* `LoxLex.Directory.locate_eq_ok_iff`, `LoxLex.Directory.locate_eq_error_iff` — what is found at the
  end of a path, and why a path cannot be followed.
* `LoxLex.Directory.read_intercalate` — a file is found by its names.
-/

namespace LoxLex

/-! ## Names -/

/-- A name that leads from a directory to something in it. -/
def IsPlainName (name : String) : Prop := name ≠ "" ∧ name ≠ "." ∧ name ≠ ".." ∧ '/' ∉ name.toList

namespace Place

/-- The place that names lead to, one after the other. -/
def walk (place : Place) (names : List String) : Place := names.foldl step place

/-- A plain name leads into a directory. -/
lemma step_plain {name : String} (h : IsPlainName name) (names : List String) :
    (inside names).step name = inside (names ++ [name]) := by
  obtain ⟨hempty, hdot, hdots, -⟩ := h
  simp [step, hempty, hdot, hdots]

/-- Plain names lead down the tree. -/
lemma walk_plain {more : List String} (h : ∀ name ∈ more, IsPlainName name)
    (names : List String) : (inside names).walk more = inside (names ++ more) := by
  induction more generalizing names with
  | nil => rw [List.append_nil]; rfl
  | cons name more ih =>
    obtain ⟨hname, hmore⟩ := List.forall_mem_cons.1 h
    calc (inside names).walk (name :: more)
        = ((inside names).step name).walk more := rfl
      _ = inside (names ++ name :: more) := by
        rw [step_plain hname, ih hmore, List.append_assoc, List.singleton_append]

end Place

namespace Directory

/-- Plain names are found again on the path that they make up. -/
lemma splitPath_intercalate {names : List String} (h : ∀ name ∈ names, IsPlainName name)
    (hne : names ≠ []) : splitPath ("/".intercalate names) = names := by
  have hsplit : ("/".intercalate names).toList.splitOn '/' = names.map String.toList := by
    rw [String.toList_intercalate]
    refine List.splitOn_intercalate '/' (fun text htext => ?_) (by simpa using hne)
    obtain ⟨name, hname, rfl⟩ := List.mem_map.1 htext
    exact (h name hname).2.2.2
  rw [splitPath, hsplit, List.map_map]
  simp [Function.comp_def]

/-- A path of plain names does not begin with a slash. -/
lemma origin_intercalate {names : List String} (h : ∀ name ∈ names, IsPlainName name)
    (hne : names ≠ []) : origin ("/".intercalate names) = .inside [] := by
  rw [origin, if_neg]
  intro hslash
  obtain ⟨text, htext⟩ := List.head?_eq_some_iff.1 hslash
  have hfirst := splitPath_intercalate h hne
  rw [splitPath, htext, List.splitOn_cons_eq_if_modifyHead, if_pos (by decide),
    List.map_cons] at hfirst
  have hempty : "" ∈ names := hfirst ▸ List.mem_cons_self
  exact (h "" hempty).1 rfl

/-! ## Following a path -/

/-- There is a directory at each place that names pass through. -/
def Passes (d : Directory) : Place → List String → Prop
  | _, [] => True
  | place, name :: names =>
    d.entryAt place = .ok .directory ∧ d.Passes (place.step name) names

variable {d : Directory}

/-- A name is followed from a directory only. -/
lemma enter_eq_ok_iff {place next : Place} {name : String} :
    d.enter place name = .ok next ↔
      d.entryAt place = .ok .directory ∧ next = place.step name := by
  rw [enter]
  cases d.entryAt place with
  | error cause => simp
  | ok entry => cases entry <;> simp [eq_comm]

/-- Names are followed through directories only. -/
lemma foldlM_enter_eq_ok_iff {place last : Place} {names : List String} :
    names.foldlM d.enter place = .ok last ↔ d.Passes place names ∧ last = place.walk names := by
  induction names generalizing place with
  | nil => simp [Passes, Place.walk, eq_comm]
  | cons name names ih =>
    simp only [List.foldlM_cons, bind_eq_ok_iff, enter_eq_ok_iff, ih, Passes, Place.walk,
      List.foldl_cons]
    constructor
    · rintro ⟨_, ⟨hplace, rfl⟩, hnames, rfl⟩
      exact ⟨⟨hplace, hnames⟩, rfl⟩
    · rintro ⟨⟨hplace, hnames⟩, rfl⟩
      exact ⟨_, ⟨hplace, rfl⟩, hnames, rfl⟩

/-- **What is found at the end of a path.** It is what lies at the place that the names lead to, if
there are directories on the way. -/
theorem locate_eq_ok_iff {path : String} {entry : DirectoryEntry} (hpath : path ≠ "") :
    d.locate path = .ok entry ↔
      d.Passes (origin path) (splitPath path) ∧
        d.entryAt ((origin path).walk (splitPath path)) = .ok entry := by
  rw [locate, if_neg hpath, bind_eq_ok_iff]
  simp only [foldlM_enter_eq_ok_iff]
  constructor
  · rintro ⟨_, ⟨hpasses, rfl⟩, hentry⟩
    exact ⟨hpasses, hentry⟩
  · rintro ⟨hpasses, hentry⟩
    exact ⟨_, ⟨hpasses, rfl⟩, hentry⟩

/-- **Why a path cannot be followed.** The first place on the way that is no directory decides:
there is nothing, or a file from which the path goes on.

**Proof sketch.** Induction on the names. From a directory the first name leads on, and from
anything else none does. -/
theorem locate_eq_error_iff {path : String} {cause : IoError} (hpath : path ≠ "") :
    d.locate path = .error cause ↔
      ∃ front behind, splitPath path = front ++ behind ∧ d.Passes (origin path) front ∧
        (d.entryAt ((origin path).walk front) = .error cause ∨
          (∃ bytes, d.entryAt ((origin path).walk front) = .ok (.file bytes)) ∧ behind ≠ [] ∧
            cause = .notADirectory) := by
  rw [locate, if_neg hpath]
  generalize origin path = place
  induction splitPath path generalizing place with
  | nil => simp [Passes, Place.walk]
  | cons name names ih =>
    -- either the path ends here, or it goes on from a directory
    have hcases : ∀ Q : List String → List String → Prop,
        (∃ front behind, name :: names = front ++ behind ∧ Q front behind) ↔
          Q [] (name :: names) ∨
            ∃ front behind, names = front ++ behind ∧ Q (name :: front) behind := by
      intro Q
      constructor
      · rintro ⟨_ | ⟨first, front⟩, behind, h, hQ⟩
        · obtain rfl : name :: names = behind := h
          exact .inl hQ
        · obtain ⟨rfl, hnames⟩ := List.cons.inj h
          exact .inr ⟨front, behind, hnames, hQ⟩
      · rintro (hQ | ⟨front, behind, rfl, hQ⟩)
        · exact ⟨[], name :: names, rfl, hQ⟩
        · exact ⟨name :: front, behind, rfl, hQ⟩
    rw [hcases, List.foldlM_cons, enter]
    cases hentry : d.entryAt place with
    | error other => simp [Passes, Place.walk, hentry, bind, Except.bind]
    | ok entry =>
      cases entry with
      | file bytes => simp [Passes, Place.walk, hentry, bind, Except.bind, eq_comm]
      | directory => simpa [Passes, Place.walk, hentry] using ih (place.step name)

/-! ## Files -/

/-- Each list of names has one entry at most, and nothing lies below a file. -/
structure IsTree (d : Directory) : Prop where
  eq_of_mem : ∀ names entry entry', (names, entry) ∈ d.entries → (names, entry') ∈ d.entries →
    entry = entry'
  eq_of_prefix : ∀ names bytes below entry, (names, .file bytes) ∈ d.entries →
    (below, entry) ∈ d.entries → names <+: below → below = names

namespace IsTree

variable {names : List String} {entry : DirectoryEntry}

/-- Its entry lies at its names. -/
lemma find?_of_mem (hd : d.IsTree) (h : (names, entry) ∈ d.entries) :
    d.find? names = some entry := by
  rw [find?]
  cases hfound : d.entries.find? fun e => e.1 == names with
  | none => exact absurd (List.find?_eq_none.1 hfound _ h) (by simp)
  | some e =>
    obtain ⟨other, found⟩ := e
    obtain rfl : other = names := by simpa using List.find?_some hfound
    exact congrArg some (hd.eq_of_mem _ _ _ (List.mem_of_find?_eq_some hfound) h)

/-- On the way to an entry there are directories. -/
lemma find?_of_prefix (hd : d.IsTree) {front behind : List String} {name : String}
    (h : (front ++ name :: behind, entry) ∈ d.entries) : d.find? front = some .directory := by
  rw [find?]
  cases hfound : d.entries.find? fun e => e.1 == front with
  | none =>
    have hbelow : d.entries.any (fun e => front.isPrefixOf e.1) = true :=
      List.any_eq_true.2 ⟨_, h, by simp⟩
    simp [hbelow]
  | some e =>
    obtain ⟨other, found⟩ := e
    obtain rfl : other = front := by simpa using List.find?_some hfound
    cases found with
    | directory => rfl
    | file bytes =>
      have hsame := hd.eq_of_prefix _ _ _ _ (List.mem_of_find?_eq_some hfound) h
        (List.prefix_append other _)
      simp at hsame

/-- So plain names that have an entry can be followed. -/
lemma passes_of_mem (hd : d.IsTree) {front : List String}
    (hplain : ∀ name ∈ names, IsPlainName name) (h : (front ++ names, entry) ∈ d.entries) :
    d.Passes (.inside front) names := by
  induction names generalizing front with
  | nil => trivial
  | cons name names ih =>
    obtain ⟨hname, hnames⟩ := List.forall_mem_cons.1 hplain
    refine ⟨by rw [entryAt, hd.find?_of_prefix h], ?_⟩
    rw [Place.step_plain hname]
    exact ih hnames (by simpa using h)

end IsTree

/-- **A file is found by its names.** In a tree the path that is made up of the names of a file
leads to it, and its text is read there.

**Proof sketch.** The names are found again on the path. What they pass through lies on the way to
the file, where nothing but directories can be. -/
theorem read_intercalate (hd : d.IsTree) {names : List String} {bytes : List UInt8}
    (hplain : ∀ name ∈ names, IsPlainName name) (hne : names ≠ [])
    (h : (names, .file bytes) ∈ d.entries) : d.read ("/".intercalate names) = decodeText bytes := by
  have hsplit := splitPath_intercalate hplain hne
  have hpath : "/".intercalate names ≠ "" := by
    intro hempty
    rw [hempty] at hsplit
    exact (hplain "" (hsplit ▸ List.mem_cons_self)).1 rfl
  have hfound : d.locate ("/".intercalate names) = .ok (.file bytes) := by
    rw [locate_eq_ok_iff hpath, origin_intercalate hplain hne, hsplit, Place.walk_plain hplain,
      List.nil_append, entryAt, hd.find?_of_mem h]
    exact ⟨hd.passes_of_mem hplain h, rfl⟩
  rw [read, hfound]

end Directory

end LoxLex
