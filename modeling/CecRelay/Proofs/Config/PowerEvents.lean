import CecRelay.CommandLine.Options
import CecRelay.Config.File

/-!
# Whether power events are handled

Four layers say whether power events are handled, and on which devices: the file, the environment, the host and
the command line. What the file does not say keeps its default (`ConfigFile.sectionOf_same`,
`ConfigFile.ofText_unsaid`), and the devices of the command line take the place of those of the file. Power events
are then handled exactly if they are wanted by the layers together (`Config.Wanted`) and the file by itself has a
device: a file without devices turns them off before the command line is read, and devices on the command line do
not turn them on again (`Config.active_iff_wanted`).
-/

namespace CecRelay

namespace ConfigFile

variable {α β : Type}

/-! ### What a file does not say -/

/-- The names of the members that an item says something about. In a list the members stand in their order. -/
def said (members : List (Member α)) : Toml.Item → List String
  | .table _ es => es.map (·.1)
  | .list items => (members.zip items).map (·.1.name)
  | .tables ts => (members.zip ts).map (·.1.name)
  | _ => []

/-- What every step of a fold keeps, the fold keeps. -/
theorem foldlM_keeps {f : α → β → Except Failure α} {P : α → Prop} {bs : List β}
    (hstep : ∀ b ∈ bs, ∀ a a', f a b = .ok a' → P a → P a') {a a' : α} (h : bs.foldlM f a = .ok a') (ha : P a) :
    P a' := by
  induction bs generalizing a with
  | nil =>
    obtain rfl : a = a' := Except.ok.inj h
    exact ha
  | cons b bs ih =>
    rw [List.foldlM_cons] at h
    cases hb : f a b with
    | error cause =>
      rw [hb] at h
      cases h
    | ok mid =>
      rw [hb] at h
      exact ih (fun c hc => hstep c (List.mem_cons_of_mem b hc)) h (hstep b List.mem_cons_self a mid hb ha)

theorem member_set {name : String} {read : Toml.Item → Except Failure β} {put : β → α → α} {item : Toml.Item}
    {a a' : α} (h : (member name read put).set item a = .ok a') : ∃ b, read item = .ok b ∧ a' = put b a := by
  change (read item).map (put · a) = .ok a' at h
  cases hread : read item with
  | error cause =>
    rw [hread] at h
    cases h
  | ok b =>
    rw [hread] at h
    exact ⟨b, rfl, (Except.ok.inj h).symm⟩

theorem find?_some {members : List (Member α)} {name : String} {m : Member α}
    (h : find? members name = some m) : m ∈ members ∧ m.name = name :=
  ⟨List.mem_of_find?_eq_some h, beq_iff_eq.1 (List.find?_some (p := fun m : Member α => m.name == name) h)⟩

/-- What every member that a section says something about keeps, the section keeps. -/
theorem sectionOf_keeps {members : List (Member α)} {P : α → Prop} {default a : α} {item : Toml.Item}
    (hkeeps : ∀ m ∈ members, m.name ∈ said members item → ∀ item a a', m.set item a = .ok a' → P a → P a')
    (h : sectionOf members default item = .ok a) (hdefault : P default) : P a := by
  have horder : ∀ items : List Toml.Item, (∀ m ∈ members, m.name ∈ (members.zip items).map (·.1.name) →
      ∀ item a a', m.set item a = .ok a' → P a → P a') → sectionOf.inOrder members default items = .ok a → P a := by
    intro items hkeeps hfold
    refine foldlM_keeps (fun mi hmi b b' hset => ?_) hfold hdefault
    refine hkeeps mi.1 (List.of_mem_zip hmi).1 ?_ mi.2 b b' hset
    exact List.mem_map_of_mem (f := fun mi : Member α × Toml.Item => mi.1.name) hmi
  cases item with
  | table kind es =>
    refine foldlM_keeps (fun (n, other) hmem b b' hset hb => ?_) h hdefault
    cases hfind : find? members n with
    | none =>
      simp only [hfind] at hset
      exact Except.ok.inj hset ▸ hb
    | some m =>
      simp only [hfind] at hset
      obtain ⟨hm, rfl⟩ := find?_some hfind
      exact hkeeps m hm (List.mem_map.2 ⟨(m.name, other), hmem, rfl⟩) other b b' hset hb
  | list items => exact horder items hkeeps h
  | tables ts =>
    refine horder _ (fun m hm hmem => hkeeps m hm ?_) h
    rw [List.zip_map_right, List.map_map] at hmem
    exact hmem
  | date =>
    obtain rfl := Except.ok.inj h
    exact hdefault
  | text | integer | bool | float => cases h

/-- What only the member of a name changes keeps its default in a section that does not say this name. -/
theorem sectionOf_same {members : List (Member α)} {name : String} {P : α → Prop}
    (hsame : ∀ m ∈ members, m.name ≠ name → ∀ item a a', m.set item a = .ok a' → P a → P a')
    {default a : α} {item : Toml.Item} (hsaid : name ∉ said members item) (h : sectionOf members default item = .ok a)
    (hdefault : P default) : P a :=
  sectionOf_keeps (fun m hm hmem => hsame m hm fun heq => hsaid (heq ▸ hmem)) h hdefault

/-- A text says nothing about a member of the section on power events. -/
def Unsaid (text name : String) : Prop :=
  ∀ es, Toml.Document.read? text = some es → ∀ item, ("power", item) ∈ es → name ∉ said powerMembers item

/-- The section on power events starts over from its defaults; the other sections leave it alone. -/
theorem sections_power {m : Member Config} (hm : m ∈ sections) {item : Toml.Item} {c c' : Config}
    (hset : m.set item c = .ok c') :
    c'.power = c.power ∨ m.name = "power" ∧ sectionOf powerMembers {} item = .ok c'.power := by
  simp only [sections, List.mem_cons, List.not_mem_nil, or_false] at hm
  rcases hm with rfl | rfl | rfl | rfl | rfl | rfl
  all_goals obtain ⟨p, hp, rfl⟩ := member_set hset
  · exact .inl rfl
  · exact .inr ⟨rfl, hp⟩
  all_goals exact .inl rfl

/-- What only one member of the section on power events changes keeps its default in a file that does not say it. -/
theorem ofText_same {text name : String} {file : Config} (h : ofText text = .ok file) (hunsaid : Unsaid text name)
    {P : PowerConfig → Prop} (hdefault : P {})
    (hsame : ∀ m ∈ powerMembers, m.name ≠ name → ∀ item c c', m.set item c = .ok c' → P c → P c') :
    P file.power := by
  rw [ofText] at h
  cases hread : Toml.Document.read? text with
  | none =>
    simp only [hread] at h
    cases h
  | some es =>
    simp only [hread] at h
    refine foldlM_keeps (P := fun c : Config => P c.power) (fun (n, item) hmem c c' hset hc => ?_) h hdefault
    cases hfind : find? sections n with
    | none =>
      simp only [hfind] at hset
      cases hset
    | some m =>
      simp only [hfind] at hset
      obtain ⟨hm, rfl⟩ := find?_some hfind
      rcases sections_power hm hset with heq | ⟨hname, hsection⟩
      · rw [heq]
        exact hc
      · rw [hname] at hmem
        exact sectionOf_same hsame (hunsaid es hread item hmem) hsection hdefault

/-- A file that does not say whether power events are handled leaves them on. -/
theorem ofText_enabled {text : String} {file : Config} (h : ofText text = .ok file)
    (hunsaid : Unsaid text "enabled") : file.power.enabled = true := by
  refine ofText_same (P := fun c => c.enabled = true) h hunsaid rfl fun m hm hname item c c' hset hc => ?_
  simp only [powerMembers, List.mem_cons, List.not_mem_nil, or_false] at hm
  rcases hm with rfl | rfl | rfl
  · exact absurd rfl hname
  all_goals obtain ⟨_, -, rfl⟩ := member_set hset
  · exact hc
  · exact hc

/-- A file that does not say the devices has the one at address zero. -/
theorem ofText_devices {text : String} {file : Config} (h : ofText text = .ok file)
    (hunsaid : Unsaid text "devices") : file.power.devices = [0] := by
  refine ofText_same (P := fun c => c.devices = [0]) h hunsaid rfl fun m hm hname item c c' hset hc => ?_
  simp only [powerMembers, List.mem_cons, List.not_mem_nil, or_false] at hm
  rcases hm with rfl | rfl | rfl
  · obtain ⟨_, -, rfl⟩ := member_set hset
    exact hc
  · exact absurd rfl hname
  · obtain ⟨_, -, rfl⟩ := member_set hset
    exact hc

end ConfigFile

/-! ### The layers together -/

namespace Config

/-- The devices of a run: those of the command line if it has an entry for them, else those of the file. -/
def devicesOf (file : Config) (o : Options) : List UInt8 :=
  if o.devices = [] then file.power.devices else (Devices.ofEntries o.devices).1

/-- Power events are wanted: the file has them on, the command line does not turn them off, and there is a
device. -/
def Wanted (file : Config) (o : Options) : Prop :=
  file.power.enabled = true ∧ o.powerOff = false ∧ file.devicesOf o ≠ []

/-- The environment does not say anything about power events. -/
theorem withEnvironment_power (c : Config) (env : Environment) : (c.withEnvironment env).1.power = c.power := by
  have hdir : (c.withQueueDir env).power = c.power := by
    rw [withQueueDir]
    split
    · rfl
    · split
      · rfl
      · rfl
  rw [withEnvironment, withBudget, ← hdir]
  split
  · rfl
  · split
    · rfl
    · rfl

/-- The host turns power events off if there is no device, and leaves the devices alone. -/
theorem withHost_power (c : Config) (host : Option String) :
    (c.withHost host).power = { c.power with enabled := c.power.enabled && !c.power.devices.isEmpty } := by
  simp only [withHost]
  split
  all_goals
    split
    · rename_i hempty
      simp only [hempty, Bool.not_true, Bool.and_false]
    · rename_i hsome
      simp only [hsome, Bool.not_false, Bool.and_true]

/-- The command line says the devices if it has an entry for them. -/
theorem withOptions_devices (c : Config) (o : Options) : (c.withOptions o).1.power.devices = c.devicesOf o := by
  simp only [withOptions, devicesOf, List.isEmpty_iff]
  split
  · rfl
  · rfl

/-- The command line can turn power events off but not on. -/
theorem withOptions_enabled (c : Config) (o : Options) :
    (c.withOptions o).1.power.enabled = (c.power.enabled && !o.powerOff && !(c.devicesOf o).isEmpty) := by
  rw [← withOptions_devices]
  rfl

theorem assemble_devices (file : Config) (env : Environment) (host : Option String) (o : Options) :
    (file.assemble env host o).1.power.devices = file.devicesOf o := by
  show (((file.withEnvironment env).1.withHost host).withOptions o).1.power.devices = _
  rw [withOptions_devices, devicesOf, withHost_power, withEnvironment_power, devicesOf]

theorem assemble_enabled (file : Config) (env : Environment) (host : Option String) (o : Options) :
    (file.assemble env host o).1.power.enabled =
      (file.power.enabled && !file.power.devices.isEmpty && !o.powerOff && !(file.devicesOf o).isEmpty) := by
  have hdevices : ((file.withEnvironment env).1.withHost host).devicesOf o = file.devicesOf o := by
    rw [devicesOf, withHost_power, withEnvironment_power, devicesOf]
  show (((file.withEnvironment env).1.withHost host).withOptions o).1.power.enabled = _
  rw [withOptions_enabled, hdevices, withHost_power, withEnvironment_power]

/-- Power events are handled exactly if they are wanted and the file by itself has a device. -/
theorem assemble_active (file : Config) (env : Environment) (host : Option String) (o : Options) :
    (file.assemble env host o).1.power.active = true ↔ file.Wanted o ∧ file.power.devices ≠ [] := by
  rw [PowerConfig.active, assemble_enabled, assemble_devices]
  simp only [Bool.and_eq_true, Bool.not_eq_true', List.isEmpty_eq_false_iff, Wanted]
  constructor
  · rintro ⟨⟨⟨⟨henabled, hfile⟩, hoff⟩, hdevices⟩, -⟩
    exact ⟨⟨henabled, hoff, hdevices⟩, hfile⟩
  · rintro ⟨⟨henabled, hoff, hdevices⟩, hfile⟩
    exact ⟨⟨⟨⟨henabled, hfile⟩, hoff⟩, hdevices⟩, hdevices⟩

/-- From a file that can be read, an environment, a host and a command line: what the file does not say about
power events keeps its default; the devices of the run are those of the command line if it has an entry for them,
else those of the file; and power events are handled exactly if they are wanted and the file by itself has a
device. So they are handled whenever they are wanted, and only then, unless the file has no device and the command
line has one. -/
theorem active_iff_wanted {text : String} {file : Config} (hfile : ConfigFile.ofText text = .ok file)
    (env : Environment) (host : Option String) (o : Options) :
    (ConfigFile.Unsaid text "enabled" → file.power.enabled = true) ∧
      (ConfigFile.Unsaid text "devices" → file.power.devices = [0]) ∧
      (file.assemble env host o).1.power.devices = file.devicesOf o ∧
      ((file.assemble env host o).1.power.active = true ↔ file.Wanted o ∧ file.power.devices ≠ []) ∧
      (((file.assemble env host o).1.power.active = true ↔ file.Wanted o) ↔
        ¬ (file.power.devices = [] ∧ file.Wanted o)) := by
  have hactive := assemble_active file env host o
  refine ⟨ConfigFile.ofText_enabled hfile, ConfigFile.ofText_devices hfile, assemble_devices file env host o,
    hactive, ?_⟩
  constructor
  · rintro hiff ⟨hempty, hwanted⟩
    exact (hactive.1 (hiff.2 hwanted)).2 hempty
  · intro hnot
    constructor
    · exact fun h => (hactive.1 h).1
    · exact fun hwanted => hactive.2 ⟨hwanted, fun hempty => hnot ⟨hempty, hwanted⟩⟩

/-- The file has no device, the command line says the one at address two, and power events are not handled. -/
theorem wanted_not_active :
    ConfigFile.ofText "[power]\ndevices=[]\n" = .ok { power := { devices := [] } } ∧
      ∀ env host,
        ({ power := { devices := [] } } : Config).Wanted { devices := ["2"] } ∧
        (({ power := { devices := [] } } : Config).assemble env host { devices := ["2"] }).1.power.devices = [2] ∧
        (({ power := { devices := [] } } : Config).assemble env host
          { devices := ["2"] }).1.power.active = false := by
  have hread : (ConfigFile.ofText "[power]\ndevices=[]\n").toOption = some { power := { devices := [] } } := by
    decide +kernel
  have hfile : ConfigFile.ofText "[power]\ndevices=[]\n" = .ok { power := { devices := [] } } := by
    cases heq : ConfigFile.ofText "[power]\ndevices=[]\n" with
    | error cause =>
      rw [heq] at hread
      cases hread
    | ok c =>
      rw [heq] at hread
      exact congrArg Except.ok (Option.some.inj hread)
  have hentry : (Devices.ofEntries ["2"]).1 = [2] := by decide
  have hof : ({ power := { devices := [] } } : Config).devicesOf { devices := ["2"] } = [2] := hentry
  refine ⟨hfile, fun env host => ?_⟩
  obtain ⟨-, -, hdevices, hactive, -⟩ := active_iff_wanted hfile env host { devices := ["2"] }
  refine ⟨⟨rfl, rfl, ?_⟩, ?_, ?_⟩
  · rw [hof]
    exact List.cons_ne_nil _ _
  · rw [hdevices, hof]
  · exact Bool.eq_false_iff.2 fun h => (hactive.1 h).2 rfl

end Config
end CecRelay
