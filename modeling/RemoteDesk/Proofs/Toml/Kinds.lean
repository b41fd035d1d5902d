import Mathlib.Data.List.Forall2
import RemoteDesk.Proofs.Json.Fields
import RemoteDesk.Proofs.Toml.Distinct

/-!
What a typed TOML value may look like, apart from how it is read. A shape says which values have the
type, and what a value says once every known key that is absent has its default and every unknown
key is gone. A kind of values is a shape with a reader that takes just these and loses nothing of
what they say. Kinds of lists and records come from those of their parts.
-/
namespace RemoteDesk

theorem bind_eq_ok_iff {ε α β : Type} {x : Except ε α} {f : α → Except ε β} {b : β} :
    (x >>= f) = .ok b ↔ ∃ a, x = .ok a ∧ f a = .ok b := by
  refine ⟨bind_eq_ok, ?_⟩
  rintro ⟨a, rfl, h⟩
  exact h

theorem pure_eq_ok_iff {ε α : Type} {a b : α} : (pure a : Except ε α) = .ok b ↔ a = b :=
  ⟨Except.ok.inj, congrArg Except.ok⟩

theorem mapM_eq_ok_iff {α β : Type} {read : α → Except Mismatch β} {vs : List α} {as : List β} :
    vs.mapM read = .ok as ↔ List.Forall₂ (fun v a => read v = .ok a) vs as := by
  induction vs generalizing as with
  | nil =>
    rw [List.mapM_nil, pure_eq_ok_iff, List.forall₂_nil_left_iff]
    exact eq_comm
  | cons v vs ih =>
    rw [List.mapM_cons, bind_eq_ok_iff]
    simp only [bind_eq_ok_iff, pure_eq_ok_iff, ih, List.forall₂_cons_left_iff]
    constructor
    · rintro ⟨a, hv, as, hvs, rfl⟩
      exact ⟨a, as, hv, hvs, rfl⟩
    · rintro ⟨a, as, hv, hvs, rfl⟩
      exact ⟨a, hv, as, hvs, rfl⟩

namespace Toml

/-- The entries of a table, if it is one. -/
def entries? : Toml → Option Entries
  | .table _ entries => some entries
  | _ => none

theorem Distinct.of_entries {v : Toml} {entries : Entries} (h : v.Distinct)
    (hentries : v.entries? = some entries) : Entries.Distinct entries := by
  cases v with
  | table origin es =>
    obtain rfl := Option.some.inj hentries
    exact distinct_table.mp h
  | _ => contradiction

/-- The shape of values. -/
structure Shape where
  /-- Records are written as tables, and choices by their names. -/
  tabular : Toml → Prop
  /-- The value has the type, and lies within its range. -/
  fits : Toml → Prop
  /-- The value with known keys alone, each absent one with its default. -/
  complete : Toml → Toml
  /-- The values say the same under each known key. -/
  alike : Toml → Toml → Prop
  refl : ∀ v, alike v v
  same : ∀ {v w}, alike v w → (fits v ↔ fits w) ∧ complete v = complete w

namespace Shape

theorem forall_same (shape : Shape) {vs ws : List Toml} (h : List.Forall₂ shape.alike vs ws) :
    ((∀ v ∈ vs, shape.fits v) ↔ ∀ w ∈ ws, shape.fits w) ∧
      vs.map shape.complete = ws.map shape.complete := by
  induction h with
  | nil => exact ⟨Iff.rfl, rfl⟩
  | cons h _ ih =>
    obtain ⟨hfits, hcomplete⟩ := shape.same h
    simp only [List.forall_mem_cons, List.map_cons, hfits, hcomplete, ih.1, ih.2, and_self]

/-- Values that are not made of others. -/
def plain (fits : Toml → Prop) : Shape where
  tabular _ := True
  fits := fits
  complete v := v
  alike := Eq
  refl _ := rfl
  same h := ⟨h ▸ Iff.rfl, h⟩

def text : Shape := plain fun v => ∃ s, v = .text s

def flag : Shape := plain fun v => ∃ b, v = .boolean b

/-- Integers within the range of a type. -/
def number (t : IntegerType) : Shape := plain fun v => ∃ n, v = .integer n ∧ t.least ≤ n ∧ n ≤ t.most

/-- One of several names. -/
def name (names : List String) : Shape :=
  { plain fun v => ∃ s ∈ names, v = .text s with tabular := fun v => ∃ s, v = .text s }

def list (item : Shape) : Shape where
  tabular v := ∀ items, v.items? = some items → ∀ w ∈ items, item.tabular w
  fits v := ∃ items, v.items? = some items ∧ ∀ w ∈ items, item.fits w
  complete v := .list ((v.items?.getD []).map item.complete)
  alike v w := v = w ∨ ∃ items others, v.items? = some items ∧ w.items? = some others ∧
    List.Forall₂ item.alike items others
  refl _ := .inl rfl
  same := by
    rintro v w (rfl | ⟨items, others, hv, hw, hall⟩)
    · exact ⟨Iff.rfl, rfl⟩
    obtain ⟨hfits, hcomplete⟩ := item.forall_same hall
    simp only [hv, hw, Option.some.injEq, exists_eq_left', Option.getD_some, hfits, hcomplete,
      and_self]

end Shape

/-- A key that a record knows. -/
structure Known where
  name : String
  shape : Shape
  /-- Whether it must not be absent. -/
  needed : Bool
  /-- What its absence stands for, if it stands for a value. -/
  absent? : Option Toml

namespace Known

variable {k : Known} {entries others : Entries} {v w : Toml}

/-- What a table says under the key. -/
def value? (k : Known) (entries : Entries) : Option Toml := (entries.lookup k.name).or k.absent?

def tabular (k : Known) (entries : Entries) : Prop :=
  ∀ v, entries.lookup k.name = some v → k.shape.tabular v

def fits (k : Known) (entries : Entries) : Prop :=
  (∀ v, k.value? entries = some v → k.shape.fits v) ∧ (k.needed → (k.value? entries).isSome)

def completed? (k : Known) (entries : Entries) : Option Toml :=
  (k.value? entries).map k.shape.complete

def alike (k : Known) (entries others : Entries) : Prop :=
  Option.Rel k.shape.alike (k.value? entries) (k.value? others)

theorem value?_of_some (h : entries.lookup k.name = some v) : k.value? entries = some v := by
  rw [value?, h]
  rfl

theorem value?_of_none (h : entries.lookup k.name = none) : k.value? entries = k.absent? := by
  rw [value?, h]
  rfl

theorem same (h : k.alike entries others) :
    (k.fits entries ↔ k.fits others) ∧ k.completed? entries = k.completed? others := by
  unfold alike at h
  unfold fits completed?
  generalize k.value? entries = this, k.value? others = that at h ⊢
  cases h with
  | none => exact ⟨Iff.rfl, rfl⟩
  | some h =>
    obtain ⟨hfits, hcomplete⟩ := k.shape.same h
    simp only [Option.some.injEq, forall_eq', hfits, hcomplete, Option.map_some, Option.isSome_some,
      and_self]

theorem alike_of_value (h : k.value? entries = k.value? others) : k.alike entries others := by
  rw [alike, h]
  cases k.value? others with
  | none => exact .none
  | some v => exact .some (k.shape.refl v)

/-- What the absence of a key stands for may as well be left out. -/
theorem alike_filter (hv : entries.lookup k.name = some v) (habsent : k.absent? = some w)
    (h : k.shape.alike v w) : k.alike entries (entries.filter (·.1 ≠ k.name)) := by
  rw [alike, value?_of_some hv, value?_of_none (lookup_filter_self _ _), habsent]
  exact .some h

end Known

/-- Entries under names that have one. -/
def present (named : List (String × Option Toml)) : Entries :=
  named.filterMap fun n => n.2.map (n.1, ·)

/-- Tables with known keys. -/
def Shape.table (keys : List Known) : Shape where
  tabular v := ∃ entries, v.entries? = some entries ∧ ∀ k ∈ keys, k.tabular entries
  fits v := ∃ entries, v.entries? = some entries ∧ ∀ k ∈ keys, k.fits entries
  complete v :=
    .table .heading (present (keys.map fun k => (k.name, k.completed? (v.entries?.getD []))))
  alike v w := v = w ∨ ∃ entries others, v.entries? = some entries ∧ w.entries? = some others ∧
    ∀ k ∈ keys, k.alike entries others
  refl _ := .inl rfl
  same := by
    rintro v w (rfl | ⟨entries, others, hv, hw, hall⟩)
    · exact ⟨Iff.rfl, rfl⟩
    have hfits : (∀ k ∈ keys, k.fits entries) ↔ ∀ k ∈ keys, k.fits others :=
      forall₂_congr fun k hk => (Known.same (hall k hk)).1
    have hcomplete : keys.map (fun k => (k.name, k.completed? entries)) =
        keys.map fun k => (k.name, k.completed? others) :=
      List.map_congr_left fun k hk => by rw [(Known.same (hall k hk)).2]
    simp only [hv, hw, Option.some.injEq, exists_eq_left', Option.getD_some, hfits, hcomplete,
      and_self]

/-- The order of the keys does not matter. -/
theorem Shape.alike_of_perm {keys : List Known} {origin : Origin} {entries others : Entries}
    (hkeys : (entries.map (·.1)).Nodup) (h : entries.Perm others) :
    (table keys).alike (.table origin entries) (.table origin others) := by
  refine .inr ⟨entries, others, rfl, rfl, fun k _ => Known.alike_of_value ?_⟩
  rw [Known.value?, Known.value?, lookup_of_perm hkeys h]

/-- A key whose value is its default may be left out. -/
theorem Shape.alike_filter {keys : List Known} {k : Known} {origin : Origin} {entries : Entries}
    {v w : Toml} (hnames : (keys.map (·.name)).Nodup) (hk : k ∈ keys)
    (hv : entries.lookup k.name = some v) (habsent : k.absent? = some w)
    (h : k.shape.alike v w) :
    (table keys).alike (.table origin entries)
      (.table origin (entries.filter (·.1 ≠ k.name))) := by
  refine .inr ⟨entries, _, rfl, rfl, fun other hother => ?_⟩
  by_cases hname : other.name = k.name
  · obtain rfl := List.inj_on_of_nodup_map hnames hother hk hname
    exact Known.alike_filter hv habsent h
  · refine Known.alike_of_value ?_
    rw [Known.value?, Known.value?, lookup_filter_of_ne hname]

/-- An empty list has nothing in it that could be written otherwise. -/
theorem Shape.tabular_nil (item : Shape) : (list item).tabular (.list []) := by
  intro items h
  obtain rfl := Option.some.inj h
  exact nofun

theorem Shape.tabular_empty (keys : List Known) : (table keys).tabular (.table .heading []) :=
  ⟨[], rfl, fun _ _ => nofun⟩

/-- A kind of values: a shape, a reader for it, and how what was read is written in full. -/
structure Kind (α : Type) where
  shape : Shape
  read : Toml → Except Mismatch α
  write : α → Toml
  injective : Function.Injective write
  of_ok : ∀ {v a}, shape.tabular v → read v = .ok a → shape.fits v ∧ write a = shape.complete v
  exists_ok : ∀ {v}, v.Distinct → shape.tabular v → shape.fits v → ∃ a, read v = .ok a

namespace Kind

variable {α β : Type}

/-- What is read is what the value says, once that is complete. -/
theorem eq_ok_iff (kind : Kind α) {v : Toml} {a : α} (hv : v.Distinct)
    (h : kind.shape.tabular v) :
    kind.read v = .ok a ↔ kind.shape.fits v ∧ kind.write a = kind.shape.complete v := by
  refine ⟨kind.of_ok h, ?_⟩
  rintro ⟨hfits, hwrite⟩
  obtain ⟨b, hb⟩ := kind.exists_ok hv h hfits
  obtain rfl := kind.injective (hwrite.trans (kind.of_ok h hb).2.symm)
  exact hb

/-- Values that say the same are read as the same, or not at all. -/
theorem read_congr (kind : Kind α) {v w : Toml} (hv : v.Distinct) (hw : w.Distinct)
    (htv : kind.shape.tabular v) (htw : kind.shape.tabular w) (h : kind.shape.alike v w) (a : α) :
    kind.read v = .ok a ↔ kind.read w = .ok a := by
  obtain ⟨hfits, hcomplete⟩ := kind.shape.same h
  rw [kind.eq_ok_iff hv htv, kind.eq_ok_iff hw htw, hfits, hcomplete]

/-! ### Single values -/

theorem asTextOf_eq_ok {wanted : String} {v : Toml} {s : String}
    (h : asTextOf wanted v = .ok s) : v = .text s := by
  cases v with
  | text t => rw [Except.ok.inj h]
  | _ => contradiction

/-- Texts, called as the wanted type. -/
def text (wanted : String) : Kind String where
  shape := .text
  read := asTextOf wanted
  write := .text
  injective _ _ h := Toml.text.inj h
  of_ok _ h := ⟨⟨_, asTextOf_eq_ok h⟩, (asTextOf_eq_ok h).symm⟩
  exists_ok := by
    rintro _ - - ⟨s, rfl⟩
    exact ⟨s, rfl⟩

def flag : Kind Bool where
  shape := .flag
  read := asBool
  write := .boolean
  injective _ _ h := Toml.boolean.inj h
  of_ok := by
    intro v b _ h
    cases v with
    | boolean b' =>
      obtain rfl := Except.ok.inj h
      exact ⟨⟨_, rfl⟩, rfl⟩
    | _ => contradiction
  exists_ok := by
    rintro _ - - ⟨b, rfl⟩
    exact ⟨b, rfl⟩

/-- Integers of a type, kept as numbers of another that has them all. -/
def number (t : IntegerType) (ofInt : Int → α) (toInt : α → Int)
    (injective : Function.Injective toInt)
    (kept : ∀ n, t.least ≤ n → n ≤ t.most → toInt (ofInt n) = n) : Kind α where
  shape := .number t
  read v := (asInteger t v).map ofInt
  write a := .integer (toInt a)
  injective _ _ h := injective (Toml.integer.inj h)
  of_ok := by
    intro v a _ h
    obtain ⟨n, hn, rfl⟩ := map_eq_ok h
    cases v with
    | integer m =>
      obtain ⟨⟨hleast, hmost⟩, rfl⟩ := IntegerType.accept_eq_ok_iff.mp hn
      exact ⟨⟨m, rfl, hleast, hmost⟩, congrArg Toml.integer (kept m hleast hmost)⟩
    | _ => contradiction
  exists_ok := by
    rintro _ - - ⟨n, rfl, hrange⟩
    have hn : asInteger t (.integer n) = .ok n := IntegerType.accept_eq_ok_iff.mpr ⟨hrange, rfl⟩
    exact ⟨ofInt n, by rw [hn]; rfl⟩

/-- Choices without data, each with a name of its own. -/
def choice (choices : List (String × α)) (nameOf : α → String)
    (named : ∀ s a, choices.lookup s = some a ↔ s = nameOf a) : Kind α where
  shape := .name (choices.map (·.1))
  read := asChoice choices
  write a := .text (nameOf a)
  injective := by
    intro a b h
    have ha := (named _ a).mpr rfl
    have hb := (named _ b).mpr rfl
    rw [Toml.text.inj h, hb] at ha
    exact (Option.some.inj ha).symm
  of_ok := by
    rintro _ a ⟨s, rfl⟩ h
    have hchosen : chosen choices s = .ok a := h
    unfold chosen at hchosen
    cases hlookup : choices.lookup s with
    | none =>
      rw [hlookup] at hchosen
      contradiction
    | some b =>
      rw [hlookup] at hchosen
      obtain rfl := Except.ok.inj hchosen
      obtain ⟨c, hc, heq⟩ := List.lookup_isSome_iff.mp (Option.isSome_of_eq_some hlookup)
      refine ⟨⟨s, List.mem_map.mpr ⟨c, hc, (eq_of_beq heq).symm⟩, rfl⟩, ?_⟩
      exact congrArg Toml.text ((named s b).mp hlookup).symm
  exists_ok := by
    rintro _ - - ⟨s, hs, rfl⟩
    obtain ⟨c, hc, rfl⟩ := List.mem_map.mp hs
    have hsome := List.lookup_isSome_iff.mpr ⟨c, hc, beq_self_eq_true c.1⟩
    obtain ⟨a, ha⟩ := Option.isSome_iff_exists.mp hsome
    exact ⟨a, by rw [asChoice, chosen, ha]⟩

/-! ### Lists -/

section
variable {vs : List Toml}

theorem of_all_ok (kind : Kind α) {as : List α} (htabular : ∀ v ∈ vs, kind.shape.tabular v)
    (h : List.Forall₂ (fun v a => kind.read v = .ok a) vs as) :
    (∀ v ∈ vs, kind.shape.fits v) ∧ as.map kind.write = vs.map kind.shape.complete := by
  induction h with
  | nil => exact ⟨nofun, rfl⟩
  | cons hread _ ih =>
    obtain ⟨hfits, hwrite⟩ := kind.of_ok (htabular _ List.mem_cons_self) hread
    obtain ⟨hall, hmap⟩ := ih fun v hv => htabular v (List.mem_cons_of_mem _ hv)
    exact ⟨List.forall_mem_cons.mpr ⟨hfits, hall⟩, by rw [List.map_cons, List.map_cons, hwrite, hmap]⟩

theorem exists_all_ok (kind : Kind α) (hdistinct : ∀ v ∈ vs, v.Distinct)
    (htabular : ∀ v ∈ vs, kind.shape.tabular v) (hfits : ∀ v ∈ vs, kind.shape.fits v) :
    ∃ as, List.Forall₂ (fun v a => kind.read v = .ok a) vs as := by
  induction vs with
  | nil => exact ⟨[], .nil⟩
  | cons v vs ih =>
    obtain ⟨hd, hdistinct⟩ := List.forall_mem_cons.mp hdistinct
    obtain ⟨ht, htabular⟩ := List.forall_mem_cons.mp htabular
    obtain ⟨hf, hfits⟩ := List.forall_mem_cons.mp hfits
    obtain ⟨a, ha⟩ := kind.exists_ok hd ht hf
    obtain ⟨as, has⟩ := ih hdistinct htabular hfits
    exact ⟨a :: as, .cons ha has⟩

end

def list (kind : Kind α) : Kind (List α) where
  shape := .list kind.shape
  read := asList kind.read
  write as := .list (as.map kind.write)
  injective _ _ h := kind.injective.list_map (Toml.list.inj h)
  of_ok := by
    intro v as htabular h
    unfold asList at h
    cases hitems : v.items? with
    | none =>
      rw [hitems] at h
      contradiction
    | some items =>
      rw [hitems] at h
      obtain ⟨hfits, hwrite⟩ := kind.of_all_ok (htabular items hitems) (mapM_eq_ok_iff.mp h)
      refine ⟨⟨items, hitems, hfits⟩, ?_⟩
      show Toml.list _ = Toml.list _
      rw [hitems, Option.getD_some, hwrite]
  exists_ok := by
    rintro v hdistinct htabular ⟨items, hitems, hfits⟩
    obtain ⟨as, has⟩ :=
      kind.exists_all_ok (hdistinct.of_items hitems) (htabular items hitems) hfits
    exact ⟨as, by rw [asList, hitems]; exact mapM_eq_ok_iff.mpr has⟩

end Kind

/-! ### Records -/

/-- A field of a record: the key, how the field is read, and what a record holds there. -/
structure Column (α : Type) where
  {β : Type}
  known : Known
  field : Field Toml β
  get : α → β
  /-- What is written under the key. -/
  shown : β → Option Toml
  name_eq : field.name = known.name
  injective : Function.Injective shown
  of_read : ∀ {v b}, known.shape.tabular v → field.read v = .ok b →
    known.shape.fits v ∧ shown b = some (known.shape.complete v)
  exists_read : ∀ {v}, v.Distinct → known.shape.tabular v → known.shape.fits v →
    ∃ b, field.read v = .ok b
  of_missing : field.absent = none → known.needed = true ∧ known.absent? = none
  of_absent : ∀ {b}, field.absent = some b → known.needed = false ∧
    (∀ v, known.absent? = some v → known.shape.fits v) ∧
    shown b = known.absent?.map known.shape.complete

namespace Column

variable {α β : Type} {c : Column α} {entries : Entries}

theorem of_ok {b : c.β} (htabular : c.known.tabular entries) (h : c.field.of entries = .ok b) :
    c.known.fits entries ∧ c.shown b = c.known.completed? entries := by
  unfold Known.fits Known.completed?
  cases hv : entries.lookup c.known.name with
  | some v =>
    rw [Field.of_present (c.name_eq ▸ hv)] at h
    obtain ⟨hfits, hshown⟩ := c.of_read (htabular v hv) h
    rw [Known.value?_of_some hv]
    exact ⟨⟨fun w hw => Option.some.inj hw ▸ hfits, fun _ => rfl⟩, hshown⟩
  | none =>
    rw [Known.value?_of_none hv]
    cases habsent : c.field.absent with
    | none =>
      rw [Field.of_missing (c.name_eq ▸ hv) habsent] at h
      contradiction
    | some b' =>
      rw [Field.of_absent (c.name_eq ▸ hv) habsent] at h
      obtain rfl := Except.ok.inj h
      obtain ⟨hneeded, hfits, hshown⟩ := c.of_absent habsent
      exact ⟨⟨hfits, fun hn => by rw [hneeded] at hn; contradiction⟩, hshown⟩

theorem exists_ok (hdistinct : Entries.Distinct entries) (htabular : c.known.tabular entries)
    (hfits : c.known.fits entries) : ∃ b, c.field.of entries = .ok b := by
  cases hv : entries.lookup c.known.name with
  | some v =>
    rw [Field.of_present (c.name_eq ▸ hv)]
    exact c.exists_read (hdistinct.of_lookup hv) (htabular v hv)
      (hfits.1 v (Known.value?_of_some hv))
  | none =>
    cases habsent : c.field.absent with
    | none =>
      obtain ⟨hneeded, hnone⟩ := c.of_missing habsent
      have hsome := hfits.2 hneeded
      rw [Known.value?_of_none hv, hnone] at hsome
      contradiction
    | some b => exact ⟨b, Field.of_absent (c.name_eq ▸ hv) habsent⟩

/-- A field that must not be absent. -/
def needed (name : String) (kind : Kind β) (get : α → β) : Column α where
  known := ⟨name, kind.shape, true, none⟩
  field := .needed name kind.read
  get := get
  shown b := some (kind.write b)
  name_eq := rfl
  injective _ _ h := kind.injective (Option.some.inj h)
  of_read htabular h :=
    ⟨(kind.of_ok htabular h).1, congrArg some (kind.of_ok htabular h).2⟩
  exists_read := kind.exists_ok
  of_missing _ := ⟨rfl, rfl⟩
  of_absent := nofun

/-- A field whose absence stands for what some value is read as. -/
def withDefault (name : String) (kind : Kind β) (get : α → β) (absent : β) (written : Toml)
    (htabular : kind.shape.tabular written) (hread : kind.read written = .ok absent) :
    Column α where
  known := ⟨name, kind.shape, false, some written⟩
  field := .withDefault name kind.read absent
  get := get
  shown b := some (kind.write b)
  name_eq := rfl
  injective _ _ h := kind.injective (Option.some.inj h)
  of_read htabular h :=
    ⟨(kind.of_ok htabular h).1, congrArg some (kind.of_ok htabular h).2⟩
  exists_read := kind.exists_ok
  of_missing := nofun
  of_absent h := by
    obtain rfl := Option.some.inj h
    obtain ⟨hfits, hwrite⟩ := kind.of_ok htabular hread
    refine ⟨rfl, fun v hv => ?_, congrArg some hwrite⟩
    obtain rfl := Option.some.inj hv
    exact hfits

/-- A field that may be absent, without standing for a value then. -/
def optional (name : String) (kind : Kind β) (get : α → Option β) : Column α where
  known := ⟨name, kind.shape, false, none⟩
  field := .withDefault name (fun v => (kind.read v).map some) none
  get := get
  shown b? := b?.map kind.write
  name_eq := rfl
  injective := Option.map_injective kind.injective
  of_read htabular h := by
    obtain ⟨b, hb, rfl⟩ := map_eq_ok h
    exact ⟨(kind.of_ok htabular hb).1, congrArg some (kind.of_ok htabular hb).2⟩
  exists_read hdistinct htabular hfits := by
    obtain ⟨b, hb⟩ := kind.exists_ok hdistinct htabular hfits
    exact ⟨some b, congrArg (Except.map some) hb⟩
  of_missing := nofun
  of_absent h := by
    obtain rfl := Option.some.inj h
    exact ⟨rfl, nofun, rfl⟩

end Column

theorem lookup_present_of_not_mem {name : String} {named : List (String × Option Toml)}
    (h : name ∉ named.map (·.1)) : (present named).lookup name = none := by
  rw [List.lookup_eq_none_iff]
  intro e he
  obtain ⟨n, hn, hmap⟩ := List.mem_filterMap.mp he
  obtain ⟨v, -, rfl⟩ := Option.map_eq_some_iff.mp hmap
  exact bne_iff_ne.mpr fun heq => h (heq ▸ List.mem_map_of_mem hn)

theorem lookup_present {named : List (String × Option Toml)} {n : String × Option Toml}
    (h : (named.map (·.1)).Nodup) (hn : n ∈ named) : (present named).lookup n.1 = n.2 := by
  induction named with
  | nil => contradiction
  | cons m named ih =>
    rw [List.map_cons, List.nodup_cons] at h
    obtain ⟨name, v?⟩ := m
    rcases List.mem_cons.mp hn with rfl | hrest
    · cases v? with
      | none =>
        show (present named).lookup name = none
        exact lookup_present_of_not_mem h.1
      | some v => exact List.lookup_cons_self
    · have hne : n.1 ≠ name := fun heq => h.1 (List.mem_map.mpr ⟨n, hrest, heq⟩)
      cases v? with
      | none => exact ih h.2 hrest
      | some v =>
        refine Eq.trans ?_ (ih h.2 hrest)
        show List.lookup n.1 ((name, v) :: present named) = _
        rw [List.lookup_cons, beq_eq_false_iff_ne.mpr hne]

/-! ### Making records -/

/-- What makes a record of the values of its fields, one after the other. -/
def Maker (α : Type) : List (Column α) → Type
  | [] => α
  | c :: columns => c.β → Maker α columns

namespace Maker

variable {α : Type} {entries : Entries} {a b : α}

/-- Reads one field after the other. -/
def build : (columns : List (Column α)) → Maker α columns → Entries → Except Mismatch α
  | [], a, _ => return a
  | c :: columns, make, entries => do
    let b ← c.field.of entries
    build columns (make b) entries

/-- The record made of what another holds. -/
def rebuild : (columns : List (Column α)) → Maker α columns → α → α
  | [], a, _ => a
  | c :: columns, make, a => rebuild columns (make (c.get a)) a

/-- Whatever a record is made of, its fields hold that, besides what is known of it. -/
def Keeps : (columns : List (Column α)) → Maker α columns → (α → Prop) → Prop
  | [], a, known => known a
  | c :: columns, make, known => ∀ b, Keeps columns (make b) fun a => c.get a = b ∧ known a

theorem of_build {columns : List (Column α)} {make : Maker α columns} {known : α → Prop}
    (hkeeps : Keeps columns make known) (h : build columns make entries = .ok a) :
    known a ∧ ∀ c ∈ columns, c.field.of entries = .ok (c.get a) := by
  induction columns generalizing known with
  | nil =>
    obtain rfl := Except.ok.inj h
    exact ⟨hkeeps, nofun⟩
  | cons c columns ih =>
    obtain ⟨b, hb, h⟩ := bind_eq_ok h
    obtain ⟨⟨hget, hknown⟩, hrest⟩ := ih (hkeeps b) h
    exact ⟨hknown, List.forall_mem_cons.mpr ⟨hget.symm ▸ hb, hrest⟩⟩

theorem exists_build {columns : List (Column α)} (make : Maker α columns)
    (h : ∀ c ∈ columns, ∃ b, c.field.of entries = .ok b) :
    ∃ a, build columns make entries = .ok a := by
  induction columns with
  | nil => exact ⟨make, rfl⟩
  | cons c columns ih =>
    obtain ⟨⟨b, hb⟩, hrest⟩ := List.forall_mem_cons.mp h
    obtain ⟨a, ha⟩ := ih (make b) hrest
    exact ⟨a, bind_eq_ok_iff.mpr ⟨b, hb, ha⟩⟩

theorem rebuild_congr {columns : List (Column α)} (make : Maker α columns)
    (h : ∀ c ∈ columns, c.get a = c.get b) : rebuild columns make a = rebuild columns make b := by
  induction columns with
  | nil => rfl
  | cons c columns ih =>
    obtain ⟨hget, hrest⟩ := List.forall_mem_cons.mp h
    rw [rebuild, rebuild, hget, ih (make (c.get b)) hrest]

end Maker

theorem record_eq_ok_iff {α : Type} {name : String} {fields : List (Field Toml Unit)}
    {build : Entries → Except Mismatch α} {v : Toml} {entries : Entries} {a : α}
    (h : v.entries? = some entries) :
    Data.record name fields build v = .ok a ↔
      checkFields fields entries = .ok () ∧ build entries = .ok a := by
  cases v with
  | table origin es =>
    obtain rfl := Option.some.inj h
    show ((checkFields fields es).map fun _ => es).bind build = .ok a ↔ _
    cases checkFields fields es with
    | error e => exact ⟨nofun, fun h => nomatch h.1⟩
    | ok _ => exact ⟨fun h => ⟨rfl, h⟩, And.right⟩
  | _ => contradiction

/-- Records of a type. Each is what it is made of, and holds it. -/
def Kind.record {α : Type} (name : String) (columns : List (Column α)) (make : Maker α columns)
    (names : (columns.map (·.known.name)).Nodup)
    (keeps : Maker.Keeps columns make fun _ => True)
    (rebuilt : ∀ a, Maker.rebuild columns make a = a) : Kind α where
  shape := .table (columns.map (·.known))
  read := Data.record name (columns.map (·.field.test)) (Maker.build columns make)
  write a := .table .heading (present (columns.map fun c => (c.known.name, c.shown (c.get a))))
  injective := by
    intro a b h
    have hfound : ∀ x, ∀ c ∈ columns,
        (present (columns.map fun c => (c.known.name, c.shown (c.get x)))).lookup c.known.name =
          c.shown (c.get x) := by
      intro x c hc
      refine lookup_present (n := (c.known.name, c.shown (c.get x))) ?_ (List.mem_map_of_mem hc)
      rwa [List.map_map]
    rw [← rebuilt a, ← rebuilt b]
    refine Maker.rebuild_congr make fun c hc => c.injective ?_
    rw [← hfound a c hc, ← hfound b c hc, (Toml.table.inj h).2]
  of_ok := by
    rintro v a ⟨entries, hentries, htabular⟩ h
    have hbuild := (Maker.of_build keeps ((record_eq_ok_iff hentries).mp h).2).2
    have hcolumns : ∀ c ∈ columns, c.known.fits entries ∧
        c.shown (c.get a) = c.known.completed? entries := fun c hc =>
      c.of_ok (htabular c.known (List.mem_map_of_mem hc)) (hbuild c hc)
    refine ⟨⟨entries, hentries, List.forall_mem_map.mpr fun c hc => (hcolumns c hc).1⟩, ?_⟩
    have hshown : columns.map (fun c => (c.known.name, c.shown (c.get a))) =
        (columns.map (·.known)).map fun k => (k.name, k.completed? entries) := by
      rw [List.map_map]
      exact List.map_congr_left fun c hc => congrArg (c.known.name, ·) (hcolumns c hc).2
    show Toml.table _ _ = Toml.table _ _
    rw [hshown, hentries, Option.getD_some]
  exists_ok := by
    rintro v hv ⟨entries, hentries, htabular⟩ ⟨entries', hentries', hfits⟩
    obtain rfl := Option.some.inj (hentries.symm.trans hentries')
    have hdistinct := hv.of_entries hentries
    have hcolumns : ∀ c ∈ columns, ∃ b, c.field.of entries = .ok b := fun c hc =>
      c.exists_ok hdistinct (htabular c.known (List.mem_map_of_mem hc))
        (hfits c.known (List.mem_map_of_mem hc))
    obtain ⟨a, ha⟩ := Maker.exists_build make hcolumns
    refine ⟨a, (record_eq_ok_iff hentries).mpr ⟨checkFields_eq_ok hdistinct.nodup ?_, ha⟩⟩
    refine List.forall_mem_map.mpr fun c hc => ?_
    obtain ⟨b, hb⟩ := hcolumns c hc
    exact Field.test_of hb

end Toml

end RemoteDesk
