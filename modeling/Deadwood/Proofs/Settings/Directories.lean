import Deadwood.Settings.Glob
import Deadwood.Proofs.Text.Slices

/-!
# Patterns of directories

Two kinds of patterns leave out what lies in a directory, and both search the text of a path. What
they find is said here in terms of the names between the slashes.

`**/name/**` looks for the name with a slash on either side, or at the start of the path with one
behind it. As the name has no slash itself, it is found exactly where it is a whole name other than
the last (`hasDirectory_iff`).

`dir/**` has no slash in front of what it looks for, and at the start of a path none behind it
either. So besides the paths that lie below the directory it leaves out others: those that begin
with it where a longer name begins (`BeginsLonger`), and those with a longer name that ends in its
first name (`EndsLonger`).
-/

namespace Deadwood

open Text

/-- The names between the slashes of a path. A backslash counts as a slash. -/
def Path.segments (p : Path) : List (List Char) :=
  splitAtChar '/' (replaceChar '\\' '/' p.text.toList)

theorem Settings.excludes_iff {s : Settings} {path : Path} :
    s.excludes path = true ↔
      ∃ pattern ∈ s.exclude,
        Glob.fits pattern.toList (replaceChar '\\' '/' path.text.toList) = true :=
  List.any_eq_true

/-- The settings with other patterns. -/
def Settings.excluding (s : Settings) (patterns : List String) : Settings :=
  { s with exclude := patterns }

theorem Settings.excludes_single_iff {s : Settings} {pattern : String} {path : Path} :
    (s.excluding [pattern]).excludes path = true ↔
      Glob.fits pattern.toList (replaceChar '\\' '/' path.text.toList) = true := by
  rw [excludes_iff]
  simp [excluding]

namespace Glob

theorem not_stars_lead {text : List Char} (hstar : '*' ∉ text) :
    ¬ "**/".toList <+: text ++ "/**".toList := by
  cases text with
  | nil => decide
  | cons c cs =>
    intro hpre
    have hc : '*' = c := (List.cons_prefix_cons.1 hpre).1
    exact hstar (hc ▸ List.mem_cons_self)

/-! ## A directory anywhere -/

section Anywhere

variable {name text : List Char}

/-- The name between the two wildcards is read back from the pattern. -/
theorem directoryName_eq (hslash : '/' ∉ name) (hstar : '*' ∉ name) :
    directoryName ("**/".toList ++ name ++ "/**".toList) = name := by
  have htail : ¬ "/**".toList <:+ name := fun hsuf => hstar (hsuf.subset (by decide))
  have hfront : ¬ ['/'] <+: name := fun hpre => hslash (hpre.subset (by decide))
  have hback : ¬ ['/'] <:+ name := fun hsuf => hslash (hsuf.subset (by decide))
  rw [directoryName, List.append_assoc, trimStartOf_append (by decide),
    trimStartOf_eq_self (not_stars_lead hstar), trimEndOf_append (by decide),
    trimEndOf_eq_self htail, trimStartOf_eq_self hfront, trimEndOf_eq_self hback]

/-- A name between wildcards is compared with the directories of a path, one by one. -/
theorem fits_anywhere (hslash : '/' ∉ name) (hstar : '*' ∉ name) :
    fits ("**/".toList ++ name ++ "/**".toList) text = hasDirectory name text := by
  have hpattern : ("**/".toList ++ name ++ "/**".toList).contains '/' = true := by simp
  have hstarts : startsWith ("**/".toList ++ name ++ "/**".toList) "**/".toList = true := by
    rw [startsWith, List.isPrefixOf_iff_prefix, List.append_assoc]
    exact List.prefix_append _ _
  have hends : endsWith ("**/".toList ++ name ++ "/**".toList) "/**".toList = true := by
    rw [endsWith, List.isSuffixOf_iff_suffix]
    exact List.suffix_append _ _
  rw [fits, hpattern, hstarts, hends, directoryName_eq hslash hstar]
  simp

/-- An item is in front of the last one if something comes behind it. -/
theorem mem_dropLast_iff {α : Type} {x : α} {xs : List α} :
    x ∈ xs.dropLast ↔ ∃ before after, after ≠ [] ∧ xs = before ++ x :: after := by
  constructor
  · intro hmem
    obtain ⟨before, middle, hsplit⟩ := List.append_of_mem hmem
    have hne : xs ≠ [] := by
      rintro rfl
      cases hmem
    refine ⟨before, middle ++ [xs.getLast hne], by simp, ?_⟩
    calc xs = xs.dropLast ++ [xs.getLast hne] := (List.dropLast_append_getLast hne).symm
      _ = before ++ x :: (middle ++ [xs.getLast hne]) := by simp [hsplit]
  · rintro ⟨before, after, hafter, rfl⟩
    rw [List.dropLast_append_of_ne_nil (by simp), List.dropLast_cons_of_ne_nil hafter]
    exact List.mem_append_right _ List.mem_cons_self

/-- A directory is in a path exactly if it is one of the names before the last. -/
theorem hasDirectory_iff (hslash : '/' ∉ name) :
    hasDirectory name text = true ↔ name ∈ (splitAtChar '/' text).dropLast := by
  have hname : splitAtChar '/' name = [name] := splitAtChar_eq_singleton hslash
  rw [hasDirectory, Bool.or_eq_true, contains, startsWith, occursIn_iff,
    List.isPrefixOf_iff_prefix, mem_dropLast_iff]
  constructor
  · rintro (⟨front, back, rfl⟩ | ⟨back, rfl⟩)
    · refine ⟨splitAtChar '/' front, splitAtChar '/' back, splitAtChar_ne_nil _ _, ?_⟩
      simp [splitAtChar_append_sep, hname]
    · refine ⟨[], splitAtChar '/' back, splitAtChar_ne_nil _ _, ?_⟩
      simp [splitAtChar_append_sep, hname]
  · rintro ⟨before, after, hafter, hsplit⟩
    have hfollowed : ∀ {t : List Char}, splitAtChar '/' t = name :: after →
        ∃ back, t = name ++ '/' :: back := by
      intro t ht
      obtain ⟨front, back, rfl, hfront, -⟩ :=
        (splitAtChar_eq_append_iff (List.cons_ne_nil name []) hafter).1 ht
      exact ⟨back, by rw [(splitAtChar_inj '/').1 (hfront.trans hname.symm)]⟩
    by_cases hbefore : before = []
    · -- the first name of the path
      subst hbefore
      obtain ⟨back, rfl⟩ := hfollowed hsplit
      exact Or.inr ⟨back, by simp⟩
    · obtain ⟨front, rest, rfl, -, hrest⟩ :=
        (splitAtChar_eq_append_iff hbefore (List.cons_ne_nil name after)).1 hsplit
      obtain ⟨back, rfl⟩ := hfollowed hrest
      exact Or.inl ⟨front, back, by simp⟩

end Anywhere

/-! ## A directory and what is below it -/

section Below

variable {dir text : List Char}

theorem splitStarsFrom_append {front : List Char} (hfront : '*' ∉ front) (fuel : Nat)
    (back : List Char) :
    splitStarsFrom (front.length + (fuel + 1)) (front ++ '*' :: '*' :: back) =
      front :: splitStarsFrom fuel back := by
  induction front with
  | nil => simp [splitStarsFrom]
  | cons c cs ih =>
    rw [List.mem_cons, not_or] at hfront
    have hc : c ≠ '*' := Ne.symm hfront.1
    have hfuel : (c :: cs).length + (fuel + 1) = cs.length + (fuel + 1) + 1 := by
      rw [List.length_cons]
      omega
    rw [hfuel, List.cons_append, splitStarsFrom, ih hfront.2]
    · intro rest hstar
      exact absurd hstar hc

/-- Below a directory a pattern has one pair of stars, at its end. -/
theorem splitStars_below (hstar : '*' ∉ dir) :
    splitStars (dir ++ "/**".toList) = [dir ++ ['/'], []] := by
  have hfront : '*' ∉ dir ++ ['/'] := by simp [hstar]
  have hpattern : dir ++ "/**".toList = (dir ++ ['/']) ++ '*' :: '*' :: [] := by simp
  have hlength : (dir ++ "/**".toList).length = (dir ++ ['/']).length + (1 + 1) := by simp
  rw [splitStars, hlength, hpattern, splitStarsFrom_append hfront]
  rfl

/-- A directory as it is written in a pattern: names with slashes between them, and no star. -/
structure IsDirectory (dir : List Char) : Prop where
  names_ne : ∀ name ∈ splitAtChar '/' dir, name ≠ []
  no_star : '*' ∉ dir

namespace IsDirectory

variable (h : IsDirectory dir)

include h

theorem ne_nil : dir ≠ [] := by
  rintro rfl
  exact h.names_ne [] List.mem_cons_self rfl

theorem not_slash_suffix : ¬ ['/'] <:+ dir := by
  rintro ⟨front, rfl⟩
  refine h.names_ne [] ?_ rfl
  rw [splitAtChar_append_sep]
  exact List.mem_append_right _ List.mem_cons_self

/-- A pattern for what is below a directory is taken for two searches of text: at the front of the
path, and anywhere with a slash behind it. -/
theorem fits_below :
    fits (dir ++ "/**".toList) text = (startsWith text dir || contains text (dir ++ ['/'])) := by
  have hcontains : (dir ++ "/**".toList).contains '/' = true := by simp
  have hstarts : startsWith (dir ++ "/**".toList) "**/".toList = false := by
    rw [Bool.eq_false_iff, startsWith, Ne, List.isPrefixOf_iff_prefix]
    exact not_stars_lead h.no_star
  have hfront : trimEndOf ['/'] (dir ++ ['/']) = dir := by
    rw [trimEndOf_append (by decide), trimEndOf_eq_self h.not_slash_suffix]
  have hback : trimStartOf ['/'] [] = [] := trimStartOf_eq_self (by decide)
  have hne : dir.isEmpty = false := by simpa using h.ne_nil
  simp only [fits, hcontains, hstarts, splitStars_below h.no_star, matchesAround, hfront, hback,
    hne, Bool.not_true, Bool.and_false, Bool.false_and, Bool.false_eq_true, if_false,
    List.isEmpty_nil, if_true]

end IsDirectory

/-- A path starts with a directory, if what may follow is left open. -/
theorem prefix_iff : dir <+: text ↔
    ∃ before last more after, splitAtChar '/' dir = before ++ [last] ∧
      splitAtChar '/' text = before ++ (last ++ more) :: after := by
  constructor
  · rintro ⟨back, rfl⟩
    obtain ⟨before, last, hdir⟩ := exists_splitAtChar_concat '/' dir
    obtain ⟨more, after, hback⟩ := List.exists_cons_of_ne_nil (splitAtChar_ne_nil '/' back)
    exact ⟨before, last, more, after, hdir, splitAtChar_append hdir hback⟩
  · rintro ⟨before, last, more, after, hdir, htext⟩
    obtain ⟨front, back, rfl, hfront, -⟩ := splitAtChar_eq_within_iff.1 htext
    rw [(splitAtChar_inj '/').1 (hdir.trans hfront.symm)]
    exact List.prefix_append front back

/-- A directory and a slash stand in a path, if what may come before is left open. -/
theorem infix_iff : dir ++ ['/'] <:+: text ↔
    ∃ first more before lead after, splitAtChar '/' dir = first :: more ∧ after ≠ [] ∧
      splitAtChar '/' text = before ++ (lead ++ first) :: (more ++ after) := by
  obtain ⟨first, more, hdir⟩ := List.exists_cons_of_ne_nil (splitAtChar_ne_nil '/' dir)
  constructor
  · rintro ⟨front, back, rfl⟩
    obtain ⟨before, lead, hfront⟩ := exists_splitAtChar_concat '/' front
    have hback :
        splitAtChar '/' (dir ++ '/' :: back) = first :: (more ++ splitAtChar '/' back) := by
      rw [splitAtChar_append_sep, hdir, List.cons_append]
    refine ⟨first, more, before, lead, splitAtChar '/' back, hdir, splitAtChar_ne_nil _ _, ?_⟩
    rw [← splitAtChar_append hfront hback]
    simp
  · rintro ⟨_, _, before, lead, after, hnames, hafter, htext⟩
    obtain ⟨rfl, rfl⟩ := List.cons.inj (hdir.symm.trans hnames)
    obtain ⟨front, rest, rfl, -, hrest⟩ := splitAtChar_eq_within_iff.1 htext
    obtain ⟨found, back, rfl, hfound, -⟩ :=
      (splitAtChar_eq_append_iff (List.cons_ne_nil first more) hafter).1 hrest
    rw [(splitAtChar_inj '/').1 (hdir.trans hfound.symm)]
    exact ⟨front, back, by simp⟩

end Below

/-- The names of the directory stand in the path one after the other, and another name follows. -/
def LiesBelow (dir path : List (List Char)) : Prop :=
  ∃ before after, after ≠ [] ∧ path = before ++ dir ++ after

/-- The path begins like the directory, but with a longer name in place of its last one, or it ends
there. -/
def BeginsLonger (dir path : List (List Char)) : Prop :=
  ∃ before last more after, dir = before ++ [last] ∧ path = before ++ (last ++ more) :: after ∧
    (more ≠ [] ∨ after = [])

/-- The names of the directory stand in the path, but with a longer name in place of the first one,
and another name follows. -/
def EndsLonger (dir path : List (List Char)) : Prop :=
  ∃ first more before lead after, dir = first :: more ∧ lead ≠ [] ∧ after ≠ [] ∧
    path = before ++ (lead ++ first) :: (more ++ after)

/-- Said of segments, the two searches also find paths where a segment only begins or ends as the
directory does. -/
theorem IsDirectory.fits_below_iff {dir text : List Char} (h : IsDirectory dir) :
    fits (dir ++ "/**".toList) text = true ↔
      LiesBelow (splitAtChar '/' dir) (splitAtChar '/' text) ∨
        BeginsLonger (splitAtChar '/' dir) (splitAtChar '/' text) ∨
        EndsLonger (splitAtChar '/' dir) (splitAtChar '/' text) := by
  rw [h.fits_below, Bool.or_eq_true, startsWith, contains, List.isPrefixOf_iff_prefix,
    occursIn_iff, prefix_iff, infix_iff]
  constructor
  · rintro (⟨before, last, more, after, hdir, htext⟩ |
      ⟨first, more, before, lead, after, hdir, hafter, htext⟩)
    · by_cases hlonger : more ≠ [] ∨ after = []
      · exact Or.inr (Or.inl ⟨before, last, more, after, hdir, htext, hlonger⟩)
      · rw [not_or, not_not] at hlonger
        obtain ⟨rfl, hafter⟩ := hlonger
        exact Or.inl ⟨[], after, hafter, by simp [htext, hdir]⟩
    · by_cases hlead : lead = []
      · subst hlead
        exact Or.inl ⟨before, after, hafter, by simp [htext, hdir]⟩
      · exact Or.inr (Or.inr ⟨first, more, before, lead, after, hdir, hlead, hafter, htext⟩)
  · rintro (⟨before, after, hafter, htext⟩ | ⟨before, last, more, after, hdir, htext, -⟩ |
      ⟨first, more, before, lead, after, hdir, -, hafter, htext⟩)
    · obtain ⟨first, more, hdir⟩ := List.exists_cons_of_ne_nil (splitAtChar_ne_nil '/' dir)
      exact Or.inr ⟨first, more, before, [], after, hdir, hafter, by simp [htext, hdir]⟩
    · exact Or.inl ⟨before, last, more, after, hdir, htext⟩
    · exact Or.inr ⟨first, more, before, lead, after, hdir, hafter, htext⟩

end Glob

/-! ## What settings leave out -/

namespace Settings

open Glob

/-- The pattern for all that lies in directories of a name. -/
def anywhere (name : String) : String :=
  "**/" ++ name ++ "/**"

/-- The pattern for all that lies below a directory. -/
def below (dir : String) : String :=
  dir ++ "/**"

theorem fits_anywhere_iff {name : String} {path : Path} (hslash : '/' ∉ name.toList)
    (hstar : '*' ∉ name.toList) :
    fits (anywhere name).toList (replaceChar '\\' '/' path.text.toList) = true ↔
      name.toList ∈ path.segments.dropLast := by
  rw [anywhere, String.toList_append, String.toList_append, fits_anywhere hslash hstar,
    hasDirectory_iff hslash]
  rfl

/-- Patterns of directory names leave a path out exactly if one of the names is a whole name in it
other than the last. -/
theorem excludes_anywhere (s : Settings) (names : List String)
    (hnames : ∀ name ∈ names, '/' ∉ name.toList ∧ '*' ∉ name.toList) (path : Path) :
    (∀ name ∈ names, (s.excluding [anywhere name]).excludes path = true ↔
      name.toList ∈ path.segments.dropLast) ∧
    ((s.excluding (names.map anywhere)).excludes path = true ↔
      ∃ name ∈ names, name.toList ∈ path.segments.dropLast) := by
  have hfits : ∀ name ∈ names,
      (fits (anywhere name).toList (replaceChar '\\' '/' path.text.toList) = true ↔
        name.toList ∈ path.segments.dropLast) := fun name hname =>
    fits_anywhere_iff (hnames name hname).1 (hnames name hname).2
  constructor
  · intro name hname
    rw [excludes_single_iff]
    exact hfits name hname
  · rw [excludes_iff]
    constructor
    · rintro ⟨pattern, hpattern, hfit⟩
      obtain ⟨name, hname, rfl⟩ := List.mem_map.1 hpattern
      exact ⟨name, hname, (hfits name hname).1 hfit⟩
    · rintro ⟨name, hname, hmem⟩
      exact ⟨anywhere name, List.mem_map_of_mem hname, (hfits name hname).2 hmem⟩

/-- The patterns that hold by default name five directories. A name that only begins like one of
them is not left out, and neither is the file at the end of a path. -/
theorem excludes_anywhere_default :
    default.excludes ⟨"p\\target/A.java"⟩ = true ∧ default.excludes ⟨"targets/x/build"⟩ = false := by
  have hnames : ∀ name ∈ ["target", "build", ".git", ".idea", "generated"],
      '/' ∉ name.toList ∧ '*' ∉ name.toList := by decide
  have hdefault : default.excluding
      (["target", "build", ".git", ".idea", "generated"].map anywhere) = default := by decide
  have hiff := fun path => (excludes_anywhere default _ hnames path).2
  rw [hdefault] at hiff
  refine ⟨(hiff _).2 (by decide), Bool.eq_false_iff.2 fun h => ?_⟩
  exact absurd ((hiff _).1 h) (by decide)

theorem fits_below_iff {dir : String} {path : Path} (h : IsDirectory dir.toList) :
    fits (below dir).toList (replaceChar '\\' '/' path.text.toList) = true ↔
      LiesBelow (splitAtChar '/' dir.toList) path.segments ∨
        BeginsLonger (splitAtChar '/' dir.toList) path.segments ∨
        EndsLonger (splitAtChar '/' dir.toList) path.segments := by
  rw [below, String.toList_append]
  exact h.fits_below_iff

/-- The pattern of a directory leaves out all that lies below it, and besides it paths in which only
a part of a name agrees. -/
theorem excludes_below (s : Settings) (dir : String) (h : IsDirectory dir.toList) (path : Path) :
    (s.excluding [below dir]).excludes path = true ↔
      LiesBelow (splitAtChar '/' dir.toList) path.segments ∨
        BeginsLonger (splitAtChar '/' dir.toList) path.segments ∨
        EndsLonger (splitAtChar '/' dir.toList) path.segments := by
  rw [excludes_single_iff]
  exact fits_below_iff h

/-- The directory is also found inside of another one. -/
theorem excludes_below_inner :
    IsDirectory "src/gen".toList ∧
      (default.excluding [below "src/gen"]).excludes ⟨"a/src/gen/B.java"⟩ = true := by
  have hdir : IsDirectory "src/gen".toList := ⟨by decide, by decide⟩
  refine ⟨hdir, (excludes_below default "src/gen" hdir ⟨"a/src/gen/B.java"⟩).2 (Or.inl ?_)⟩
  exact ⟨["a".toList], ["B.java".toList], by decide, by decide⟩

/-- Directories whose names only begin or end like the one in the pattern are left out as well. -/
theorem neighbours_excluded :
    IsDirectory "src".toList ∧
      ((default.excluding [below "src"]).excludes ⟨"srcgen/A.java"⟩ = true ∧
        ¬ LiesBelow (splitAtChar '/' "src".toList) (Path.segments ⟨"srcgen/A.java"⟩)) ∧
      ((default.excluding [below "src"]).excludes ⟨"mysrc/A.java"⟩ = true ∧
        ¬ LiesBelow (splitAtChar '/' "src".toList) (Path.segments ⟨"mysrc/A.java"⟩)) := by
  have hdir : IsDirectory "src".toList := ⟨by decide, by decide⟩
  have hnot : ∀ path : List (List Char), "src".toList ∉ path →
      ¬ LiesBelow (splitAtChar '/' "src".toList) path := by
    rintro path hmem ⟨before, after, -, rfl⟩
    exact hmem (List.mem_append_left _ (List.mem_append_right _ (by decide)))
  refine ⟨hdir, ⟨excludes_single_iff.2 ((fits_below_iff hdir).2 ?_), hnot _ (by decide)⟩,
    ⟨excludes_single_iff.2 ((fits_below_iff hdir).2 ?_), hnot _ (by decide)⟩⟩
  · exact Or.inr (Or.inl ⟨[], "src".toList, "gen".toList, ["A.java".toList], by decide, by decide,
      by decide⟩)
  · exact Or.inr (Or.inr ⟨"src".toList, [], [], "my".toList, ["A.java".toList], by decide,
      by decide, by decide, by decide⟩)

end Settings

end Deadwood
