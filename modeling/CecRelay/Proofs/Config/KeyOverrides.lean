import CecRelay.CommandLine.Options
import CecRelay.Proofs.Config.PowerEvents
import CecRelay.Proofs.Text.Names

/-!
# Which override of a key wins

The file and the command line override the table of keys by name, and a key has many names: letters in either case,
blanks, underscores and hyphens, aliases, its code in figures. Overrides of one name are settled when the table of
names is made: the last entry of the command line wins over those before it and over the file
(`NameTable.lookup_extend`). Overrides of different names for one key are settled only when the table of keys is
made, in the order of the names: the greatest of them wins, wherever it comes from
(`KeyTable.stroke?_withOverrides`, `Config.greatest_name_decides`).

So the command line wins over the file for a key, and a later entry of it over an earlier one, if no greater name
of that key stands anywhere; otherwise the greater name wins.
-/

namespace CecRelay

namespace Overrides

/-- An override is for a key. -/
def For (code : UInt8) (e : String × Stroke) : Prop := KeyName.code? e.1 = some code

instance (code : UInt8) (e : String × Stroke) : Decidable (For code e) :=
  inferInstanceAs (Decidable (_ = _))

/-- The last of some overrides that is for a key. -/
def last? (code : UInt8) (os : List (String × Stroke)) : Option (String × Stroke) :=
  os.reverse.find? fun e => For code e

variable {code : UInt8} {os : List (String × Stroke)} {e : String × Stroke}

theorem last?_cons (code : UInt8) (e : String × Stroke) (os : List (String × Stroke)) :
    last? code (e :: os) = (last? code os).or (if For code e then some e else none) := by
  rw [last?, List.reverse_cons, List.find?_append, List.find?_singleton]
  simp only [last?, decide_eq_true_eq]

theorem last?_eq_none : last? code os = none ↔ ∀ e ∈ os, ¬ For code e := by
  simp only [last?, List.find?_eq_none, List.mem_reverse, decide_eq_true_eq]

theorem of_last? (h : last? code os = some e) : e ∈ os ∧ For code e := by
  rw [last?] at h
  exact ⟨List.mem_reverse.1 (List.mem_of_find?_eq_some h), by simpa using List.find?_some h⟩

/-- If there is an override for the key, there is a last one. -/
theorem exists_last? (he : e ∈ os) (hfor : For code e) : ∃ e', last? code os = some e' :=
  Option.ne_none_iff_exists'.1 fun hnone => last?_eq_none.1 hnone e he hfor

/-- The last override for a key is the last one of its name. -/
theorem lookup_of_last? {name : String} {stroke : Stroke} (h : last? code os = some (name, stroke)) :
    List.lookup name os.reverse = some stroke := by
  obtain ⟨hfor, before, after, hos, hnone⟩ := List.find?_eq_some_iff_append.1 h
  have hbefore : List.lookup name before = none := by
    refine List.lookup_eq_none_iff.2 fun e he => ?_
    have hskip : ¬ For code e := by simpa using hnone e he
    have hcode : KeyName.code? name = some code := of_decide_eq_true hfor
    refine bne_iff_ne.2 fun heq => hskip ?_
    rwa [heq] at hcode
  rw [hos, List.lookup_append, hbefore, List.lookup_cons_self]
  rfl

/-- An override for another key does not change which is the last one. -/
theorem last?_insert {name : String} (stroke : Stroke) (hother : KeyName.code? name ≠ some code)
    (t : NameTable Stroke) : last? code (t.insert name stroke) = last? code t := by
  have hskip : ¬ For code (name, stroke) := hother
  induction t with
  | nil => rw [NameTable.insert, last?_cons, if_neg hskip, Option.or_none]
  | cons e t ih =>
    obtain ⟨n, c⟩ := e
    unfold NameTable.insert
    split
    · rw [last?_cons, if_neg hskip, Option.or_none]
    · split
      next heq =>
        subst heq
        have hskip' : ¬ For code (name, c) := hother
        rw [last?_cons, last?_cons, if_neg hskip, if_neg hskip']
      next => rw [last?_cons, last?_cons, ih]

theorem last?_extend {u : NameTable Stroke} (hothers : ∀ e ∈ u, ¬ For code e) (t : NameTable Stroke) :
    last? code (t.extend u) = last? code t := by
  induction u generalizing t with
  | nil => rfl
  | cons e u ih =>
    have hrest : last? code ((t.insert e.1 e.2).extend u) = last? code (t.insert e.1 e.2) :=
      ih (fun f hf => hothers f (List.mem_cons_of_mem e hf)) _
    exact hrest.trans (last?_insert e.2 (hothers e List.mem_cons_self) t)

/-- In a table sorted by name the last override for a key is the one with the greatest name. -/
theorem le_of_last? {t : NameTable Stroke} (h : t.Sorted) (hlast : last? code t = some e) {f : String × Stroke}
    (hf : f ∈ t) (hfor : For code f) : f.1 ≤ e.1 := by
  induction t with
  | nil => cases hf
  | cons g t ih =>
    obtain ⟨hfirst, hrest⟩ := List.pairwise_cons.1 h
    rw [last?_cons] at hlast
    rcases List.mem_cons.1 hf with rfl | hf
    · cases hmore : last? code t with
      | none =>
        rw [hmore, if_pos hfor] at hlast
        cases hlast
        exact le_refl _
      | some e' =>
        rw [hmore] at hlast
        cases hlast
        exact (hfirst e (of_last? hmore).1).le
    · obtain ⟨e', he'⟩ := exists_last? hf hfor
      rw [he'] at hlast
      cases hlast
      exact ih hrest he' hf

end Overrides

theorem ConfigFile.overrides_sorted {item : Toml.Item} {t : NameTable Stroke} (h : overrides item = .ok t) :
    t.Sorted := by
  cases item with
  | table kind es =>
    simp only [overrides, bind, Except.bind] at h
    split at h
    · cases h
    · cases h
      exact NameTable.Sorted.ofList _
  | _ => cases h

/-- The overrides of a file are sorted by name. -/
theorem ConfigFile.ofText_sorted {text : String} {file : Config} (h : ofText text = .ok file) :
    file.keymap.overrides.Sorted := by
  have hsection : ∀ item keymap, sectionOf keymapMembers {} item = .ok keymap → keymap.overrides.Sorted := by
    intro item keymap hkeymap
    have hdefault : ({} : KeymapConfig).overrides.Sorted := NameTable.Sorted.nil
    refine sectionOf_keeps (P := fun k : KeymapConfig => k.overrides.Sorted) (fun m hm _ item k k' hset hk => ?_)
      hkeymap hdefault
    simp only [keymapMembers, List.mem_cons, List.not_mem_nil, or_false] at hm
    rcases hm with rfl | rfl
    · obtain ⟨t, ht, rfl⟩ := member_set hset
      exact overrides_sorted ht
    · obtain ⟨_, -, rfl⟩ := member_set hset
      exact hk
  rw [ofText] at h
  cases hread : Toml.Document.read? text with
  | none =>
    simp only [hread] at h
    cases h
  | some es =>
    simp only [hread] at h
    have hdefault : ({} : Config).keymap.overrides.Sorted := NameTable.Sorted.nil
    refine foldlM_keeps (P := fun c : Config => c.keymap.overrides.Sorted) (fun entry _ c c' hset hc => ?_) h
      hdefault
    obtain ⟨n, item⟩ := entry
    cases hfind : find? sections n with
    | none =>
      simp only [hfind] at hset
      cases hset
    | some m =>
      simp only [hfind] at hset
      have hm := (find?_some hfind).1
      simp only [sections, List.mem_cons, List.not_mem_nil, or_false] at hm
      rcases hm with rfl | rfl | rfl | rfl | rfl | rfl
      all_goals obtain ⟨s, hs, rfl⟩ := member_set hset
      case inr.inr.inr.inr.inl => exact hsection item s hs
      all_goals exact hc

open Overrides

/-- A key has the stroke of the last override for it, and else the one it had. -/
theorem KeyTable.stroke?_withOverrides (t : KeyTable) (os : List (String × Stroke)) (code : UInt8) :
    (t.withOverrides os).1.stroke? code = ((last? code os).map (·.2)).or (t.stroke? code) := by
  induction os generalizing t with
  | nil => rfl
  | cons e os ih =>
    obtain ⟨name, stroke⟩ := e
    have hstep : (t.withOverrides ((name, stroke) :: os)).1 = ((t.override name stroke).1.withOverrides os).1 := by
      rw [withOverrides]
    have hfirst : (t.override name stroke).1.stroke? code =
        ((if For code (name, stroke) then some (name, stroke) else none).map (·.2)).or (t.stroke? code) := by
      cases hname : KeyName.code? name with
      | none =>
        have hskip : ¬ For code (name, stroke) := by
          simp only [For, hname, reduceCtorEq, not_false_eq_true]
        simp only [override, hname, if_neg hskip]
        rfl
      | some other =>
        have hfor : For code (name, stroke) ↔ code = other := by
          simp only [For, hname, Option.some.injEq, eq_comm]
        simp only [override, hname, stroke?_put, hfor]
        split
        · rfl
        · rfl
    rw [hstep, ih, last?_cons, hfirst, Option.map_or, Option.or_assoc]

namespace Config

theorem withEnvironment_keymap (c : Config) (env : Environment) : (c.withEnvironment env).1.keymap = c.keymap := by
  have hdir : (c.withQueueDir env).keymap = c.keymap := by
    rw [withQueueDir]
    split
    · rfl
    · split
      · rfl
      · rfl
  rw [withEnvironment, withBudget, ← hdir]
  split
  · rfl
  · split
    · rfl
    · rfl

theorem withHost_keymap (c : Config) (host : Option String) : (c.withHost host).keymap = c.keymap := by
  simp only [withHost]
  split
  · split
    · rfl
    · rfl
  · split
    · rfl
    · rfl

/-- The overrides of the command line, in their order. -/
def keyEntries (o : Options) : List (String × Stroke) := o.keymap.filterMap fun entry => (Overrides.ofEntry entry).1

/-- What is said about a name: by the last override of the command line for it, else by the file. -/
def strokeSaid? (file : Config) (o : Options) (name : String) : Option Stroke :=
  (List.lookup name (keyEntries o).reverse).or (List.lookup name file.keymap.overrides)

/-- The stroke that a run has for a key. -/
def strokeOf? (file : Config) (env : Environment) (host : Option String) (o : Options) (code : UInt8) :
    Option Stroke :=
  (KeyTable.ofOverrides (file.assemble env host o).1.keymap.overrides).1.stroke? code

/-- The overrides of a run: those of the command line put over those of the file. -/
def overridesOf (file : Config) (o : Options) : NameTable Stroke :=
  file.keymap.overrides.extend (.ofList (keyEntries o))

variable {file : Config} {o : Options} {code : UInt8}

theorem lookup_overridesOf (file : Config) (o : Options) (name : String) :
    List.lookup name (file.overridesOf o) = file.strokeSaid? o name :=
  NameTable.lookup_extend_ofList file.keymap.overrides (keyEntries o) name

/-- The names of a run are those about which something is said. -/
theorem mem_overridesOf (hsorted : file.keymap.overrides.Sorted) {name : String} {stroke : Stroke} :
    (name, stroke) ∈ file.overridesOf o ↔ file.strokeSaid? o name = some stroke := by
  rw [← lookup_overridesOf]
  exact (hsorted.extend _).mem_iff_lookup

theorem assemble_overrides (file : Config) (env : Environment) (host : Option String) (o : Options) :
    (file.assemble env host o).1.keymap.overrides = file.overridesOf o := by
  have hsame : ((file.withEnvironment env).1.withHost host).keymap = file.keymap := by
    rw [withHost_keymap, withEnvironment_keymap]
  have hentries : (Overrides.ofEntries o.keymap).1 = .ofList (keyEntries o) :=
    congrArg NameTable.ofList List.filterMap_map
  rw [overridesOf, ← hsame, ← hentries]
  rfl

/-- The last override of a run for a key decides, and then the base table. -/
theorem strokeOf?_eq (file : Config) (env : Environment) (host : Option String) (o : Options) (code : UInt8) :
    file.strokeOf? env host o code =
      ((last? code (file.overridesOf o)).map (·.2)).or (KeyTable.baseTable.stroke? code) := by
  rw [strokeOf?, KeyTable.ofOverrides, assemble_overrides, KeyTable.stroke?_withOverrides]

/-- If the command line has no override for a key, the file decides, and then the base table. If it has some, the
greatest name decides that the file or the command line has for the key: the key has the stroke of the last entry
of the command line for this name, or else that of the file. So the key has the stroke of the last override of the
command line for it exactly if this is the greatest name or the same stroke is said of the greatest. -/
theorem greatest_name_decides (file : Config) (hsorted : file.keymap.overrides.Sorted) (env : Environment)
    (host : Option String) (o : Options) (code : UInt8) :
    (last? code (keyEntries o) = none → file.strokeOf? env host o code =
      ((last? code file.keymap.overrides).map (·.2)).or (KeyTable.baseTable.stroke? code)) ∧
    ∀ name stroke, last? code (keyEntries o) = some (name, stroke) →
      ∃ top, KeyName.code? top = some code ∧ file.strokeSaid? o top ≠ none ∧
        (∀ other, KeyName.code? other = some code → file.strokeSaid? o other ≠ none → other ≤ top) ∧
        file.strokeOf? env host o code = file.strokeSaid? o top ∧
        (file.strokeOf? env host o code = some stroke ↔ top = name ∨ file.strokeSaid? o top = some stroke) := by
  refine ⟨fun hnone => ?_, fun name stroke hlast => ?_⟩
  · have hothers : ∀ e ∈ NameTable.ofList (keyEntries o), ¬ For code e :=
      fun e he => last?_eq_none.1 hnone e (NameTable.mem_ofList he)
    rw [strokeOf?_eq, overridesOf, last?_extend hothers]
  · have hname : file.strokeSaid? o name = some stroke := by
      rw [strokeSaid?, lookup_of_last? hlast]
      rfl
    obtain ⟨⟨top, s⟩, htop⟩ := exists_last? ((mem_overridesOf hsorted).2 hname) (of_last? hlast).2
    obtain ⟨hmem, hfor⟩ := of_last? htop
    have hsaid : file.strokeSaid? o top = some s := (mem_overridesOf hsorted).1 hmem
    have hdecides : file.strokeOf? env host o code = file.strokeSaid? o top := by
      rw [strokeOf?_eq, htop, hsaid]
      rfl
    refine ⟨top, hfor, by rw [hsaid]; exact Option.some_ne_none s, fun other hother hsome => ?_, hdecides, ?_⟩
    · obtain ⟨s', hs'⟩ := Option.ne_none_iff_exists'.1 hsome
      exact le_of_last? (hsorted.extend _) htop ((mem_overridesOf hsorted).2 hs') hother
    · rw [hdecides]
      refine ⟨.inr, ?_⟩
      rintro (rfl | hsame)
      · exact hname
      · exact hsame

/-- The file maps a key under one spelling of its name, the command line under a smaller one, and the key has the
stroke of the file. -/
theorem greatest_name_decides_home :
    let file : Config := { keymap := { overrides := [("home", [1])] } }
    let o : Options := { keymap := ["HOME:2"] }
    ConfigFile.ofText "[keymap.overrides]\nhome=[1]\n" = .ok file ∧ file.keymap.overrides.Sorted ∧
      last? 9 (keyEntries o) = some ("HOME", [2]) ∧ ∀ env host, file.strokeOf? env host o 9 = some [1] := by
  intro file o
  have hread : (ConfigFile.ofText "[keymap.overrides]\nhome=[1]\n").toOption = some file := by decide +kernel
  have hfile : ConfigFile.ofText "[keymap.overrides]\nhome=[1]\n" = .ok file := by
    cases heq : ConfigFile.ofText "[keymap.overrides]\nhome=[1]\n" with
    | error cause =>
      rw [heq] at hread
      cases hread
    | ok c =>
      rw [heq] at hread
      exact congrArg Except.ok (Option.some.inj hread)
  have hsorted := ConfigFile.ofText_sorted hfile
  have hlast : last? 9 (keyEntries o) = some ("HOME", [2]) := by decide +kernel
  have hnames : file.overridesOf o = [("HOME", [2]), ("home", [1])] := by decide +kernel
  refine ⟨hfile, hsorted, hlast, fun env host => ?_⟩
  obtain ⟨-, hdecides⟩ := greatest_name_decides file hsorted env host o 9
  obtain ⟨top, -, hsome, hgreatest, hstroke, -⟩ := hdecides "HOME" [2] hlast
  obtain ⟨stroke, hsaid⟩ := Option.ne_none_iff_exists'.1 hsome
  have hmem := (mem_overridesOf hsorted).2 hsaid
  rw [hnames] at hmem
  rcases List.mem_cons.1 hmem with heq | hmem
  · cases heq
    exact absurd (hgreatest "home" (by decide +kernel) (by decide +kernel)) (by decide +kernel)
  · cases List.mem_singleton.1 hmem
    exact hstroke.trans hsaid

end Config
end CecRelay
