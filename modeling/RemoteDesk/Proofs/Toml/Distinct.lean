import Mathlib.Data.List.Nodup
import RemoteDesk.Proofs.Json.Members
import RemoteDesk.Toml.Parser
import RemoteDesk.Toml.Typed

/-!
Each table that is read has each key once, whatever the text is. Adding to a document under a path
keeps this as long as the work at its end does, and every statement of a document is such work.
-/
namespace RemoteDesk.Toml

/-- Values whose tables have each key once, at every level. -/
inductive Distinct : Toml → Prop where
  | text (s : String) : Distinct (.text s)
  | integer (n : Int) : Distinct (.integer n)
  | float (x : Float) : Distinct (.float x)
  | boolean (b : Bool) : Distinct (.boolean b)
  | moment : Distinct .moment
  | list {items : List Toml} (distinct : ∀ v ∈ items, Distinct v) : Distinct (.list items)
  | rows {tables : List Entries} (nodup : ∀ t ∈ tables, (t.map (·.1)).Nodup)
      (distinct : ∀ t ∈ tables, ∀ e ∈ t, Distinct e.2) : Distinct (.rows tables)
  | table {origin : Origin} {entries : Entries} (nodup : (entries.map (·.1)).Nodup)
      (distinct : ∀ e ∈ entries, Distinct e.2) : Distinct (.table origin entries)

/-- The entries of such a table. -/
structure Entries.Distinct (entries : Entries) : Prop where
  nodup : (entries.map (·.1)).Nodup
  values : ∀ e ∈ entries, e.2.Distinct

theorem distinct_table {origin : Origin} {entries : Entries} :
    (table origin entries).Distinct ↔ Entries.Distinct entries := by
  constructor
  · rintro (_ | _ | _ | _ | _ | _ | _ | ⟨nodup, distinct⟩)
    exact ⟨nodup, distinct⟩
  · rintro ⟨nodup, distinct⟩
    exact .table nodup distinct

theorem distinct_rows {tables : List Entries} :
    (rows tables).Distinct ↔ ∀ t ∈ tables, Entries.Distinct t := by
  constructor
  · rintro (_ | _ | _ | _ | _ | _ | ⟨nodup, distinct⟩ | _) t ht
    exact ⟨nodup t ht, distinct t ht⟩
  · exact fun h => .rows (fun t ht => (h t ht).nodup) fun t ht => (h t ht).values

/-- One more table under a repeated heading. -/
theorem distinct_rows_concat {tables : List Entries} {last : Entries}
    (h : ∀ t ∈ tables, Entries.Distinct t) (hlast : Entries.Distinct last) :
    (rows (tables ++ [last])).Distinct := by
  refine distinct_rows.mpr fun t ht => ?_
  rcases List.mem_append.mp ht with ht | ht
  · exact h t ht
  · obtain rfl := List.mem_singleton.mp ht
    exact hlast

theorem Distinct.of_items {v : Toml} {items : List Toml} (h : v.Distinct)
    (hitems : v.items? = some items) : ∀ w ∈ items, w.Distinct := by
  cases h with
  | list distinct =>
    obtain rfl := Option.some.inj hitems
    exact distinct
  | rows nodup distinct =>
    obtain rfl := Option.some.inj hitems
    exact List.forall_mem_map.mpr fun t ht => .table (nodup t ht) (distinct t ht)
  | _ => contradiction

namespace Entries

variable {entries : Entries} {key : String} {v : Toml}

theorem Distinct.nil : Distinct [] := ⟨List.nodup_nil, nofun⟩

theorem Distinct.of_lookup (h : Distinct entries) (hv : entries.lookup key = some v) :
    v.Distinct := by
  obtain ⟨before, after, rfl, -⟩ := List.lookup_eq_some_iff.mp hv
  exact h.values (key, v) (List.mem_append_right before List.mem_cons_self)

theorem Distinct.filter (h : Distinct entries) (keep : String × Toml → Bool) :
    Distinct (entries.filter keep) :=
  ⟨(List.filter_sublist.map _).nodup h.nodup, fun e he => h.values e (List.mem_of_mem_filter he)⟩

/-! ### Entries that are added -/

theorem Distinct.append (h : Distinct entries) (hnew : entries.lookup key = none)
    (hv : v.Distinct) : Distinct (entries ++ [(key, v)]) where
  nodup := by
    rw [List.map_append, List.nodup_append]
    refine ⟨h.nodup, List.nodup_singleton key, ?_⟩
    rintro k hk k' hk' rfl
    obtain rfl := List.mem_singleton.mp hk'
    obtain ⟨e, he, rfl⟩ := List.mem_map.mp hk
    exact bne_iff_ne.mp (List.lookup_eq_none_iff.mp hnew e he) rfl
  values := by
    intro e he
    rcases List.mem_append.mp he with he | he
    · exact h.values e he
    · obtain rfl := List.mem_singleton.mp he
      exact hv

theorem keys_replace : (entries.replace key v).map (·.1) = entries.map (·.1) := by
  rw [replace, List.map_map]
  refine List.map_congr_left fun e _ => ?_
  by_cases h : e.1 = key
  · rw [Function.comp_apply, if_pos h, h]
  · rw [Function.comp_apply, if_neg h]

theorem Distinct.replace (h : Distinct entries) (hv : v.Distinct) :
    Distinct (entries.replace key v) where
  nodup := by
    rw [keys_replace]
    exact h.nodup
  values := by
    refine List.forall_mem_map.mpr fun e he => ?_
    by_cases hkey : e.1 = key
    · rw [if_pos hkey]
      exact hv
    · rw [if_neg hkey]
      exact h.values e he

theorem Distinct.add {entries' : Entries} (h : Distinct entries) (hv : v.Distinct)
    (hadd : entries.add key v = some entries') : Distinct entries' := by
  unfold Entries.add at hadd
  split at hadd
  · contradiction
  · rename_i hnew
    obtain rfl := Option.some.inj hadd
    exact h.append (Option.not_isSome_iff_eq_none.mp hnew) hv

end Entries

/-! ### Paths -/

/-- What may be done to the entries of a table, as far as keys go. -/
def Keeps (work : Origin → Entries → Option Entries) : Prop :=
  ∀ here entries entries', Entries.Distinct entries → work here entries = some entries' →
    Entries.Distinct entries'

/-- By induction on the path: what is done at its end is all that is done. -/
theorem Keeps.within {opening : Origin} {work : Origin → Entries → Option Entries}
    (hkeeps : Keeps work) (path : List String) :
    Keeps fun here => within opening work here path := by
  induction path with
  | nil =>
    intro here entries entries' h hwork
    dsimp only [Toml.within] at hwork
    exact hkeeps here entries entries' h hwork
  | cons key path ih =>
    intro here entries entries' h hwork
    dsimp only [Toml.within] at hwork
    split at hwork
    · rename_i hlookup
      obtain ⟨inner, hinner, hadded⟩ := Option.bind_eq_some_iff.mp hwork
      obtain rfl := Option.some.inj hadded
      exact h.append hlookup (distinct_table.mpr (ih _ _ _ .nil hinner))
    · rename_i origin inner hlookup
      split at hwork
      · obtain ⟨inner', hinner, hreplaced⟩ := Option.bind_eq_some_iff.mp hwork
        obtain rfl := Option.some.inj hreplaced
        have hdistinct := distinct_table.mp (h.of_lookup hlookup)
        exact h.replace (distinct_table.mpr (ih _ _ _ hdistinct hinner))
      · contradiction
    · rename_i tables hlookup
      obtain ⟨last, hlast, hreplaced⟩ := Option.bind_eq_some_iff.mp hwork
      obtain rfl := Option.some.inj hreplaced
      have htables := distinct_rows.mp (h.of_lookup hlookup)
      have hbefore : Entries.Distinct (tables.getLast?.getD []) := by
        cases hlast? : tables.getLast? with
        | none => exact .nil
        | some t => exact htables t (List.mem_of_getLast? hlast?)
      refine h.replace (distinct_rows_concat ?_ (ih _ _ _ hbefore hlast))
      exact fun t ht => htables t (List.dropLast_subset tables ht)
    · contradiction

namespace Entries

variable {entries entries' : Entries}

theorem Distinct.addKey {key : Key} {v : Toml} (h : Distinct entries) (hv : v.Distinct)
    (hadd : entries.addKey key v = some entries') : Distinct entries' := by
  refine Keeps.within ?_ key.path _ entries entries' h hadd
  intro here inner inner' hinner hwork
  dsimp only at hwork
  split at hwork
  · exact hinner.add hv hwork
  · contradiction

theorem Distinct.addKeys {pairs : List (Key × Toml)} (h : Distinct entries)
    (hpairs : ∀ p ∈ pairs, p.2.Distinct) (hadd : addKeys pairs entries = some entries') :
    Distinct entries' := by
  induction pairs generalizing entries with
  | nil =>
    obtain rfl := Option.some.inj hadd
    exact h
  | cons p pairs ih =>
    obtain ⟨hp, hpairs⟩ := List.forall_mem_cons.mp hpairs
    obtain ⟨more, hmore, hrest⟩ := Option.bind_eq_some_iff.mp hadd
    exact ih (h.addKey hp hmore) hpairs hrest

theorem Distinct.addPart {p : Part} (h : Distinct entries) (hpairs : ∀ q ∈ p.pairs, q.2.Distinct)
    (hadd : entries.addPart p = some entries') : Distinct entries' := by
  obtain ⟨heading, pairs⟩ := p
  cases heading with
  | table key =>
    refine Keeps.within ?_ key.path _ entries entries' h hadd
    intro here inner inner' hinner hwork
    dsimp only at hwork
    split at hwork
    · rename_i hlookup
      obtain ⟨new, hnew, hadded⟩ := Option.bind_eq_some_iff.mp hwork
      obtain rfl := Option.some.inj hadded
      exact hinner.append hlookup (distinct_table.mpr (Distinct.nil.addKeys hpairs hnew))
    · rename_i passed hlookup
      obtain ⟨new, hnew, hadded⟩ := Option.bind_eq_some_iff.mp hwork
      obtain rfl := Option.some.inj hadded
      have hpassed := distinct_table.mp (hinner.of_lookup hlookup)
      exact (hinner.filter _).append (lookup_filter_self _ _)
        (distinct_table.mpr (hpassed.addKeys hpairs hnew))
    · contradiction
  | row key =>
    refine Keeps.within ?_ key.path _ entries entries' h hadd
    intro here inner inner' hinner hwork
    obtain ⟨new, hnew, hwork⟩ := Option.bind_eq_some_iff.mp hwork
    have hdistinct : Distinct new := Distinct.nil.addKeys hpairs hnew
    split at hwork
    · rename_i hlookup
      obtain rfl := Option.some.inj hwork
      exact hinner.append hlookup (distinct_rows_concat (List.forall_mem_nil _) hdistinct)
    · rename_i tables hlookup
      obtain rfl := Option.some.inj hwork
      have htables := distinct_rows.mp (hinner.of_lookup hlookup)
      exact hinner.replace (distinct_rows_concat htables hdistinct)
    · contradiction

theorem distinct_ofParts {pairs : List (Key × Toml)} {parts : List Part}
    (hpairs : ∀ p ∈ pairs, p.2.Distinct) (hparts : ∀ p ∈ parts, ∀ q ∈ p.pairs, q.2.Distinct)
    (h : ofParts pairs parts = some entries') : Distinct entries' := by
  obtain ⟨entries, hentries, hadd⟩ := Option.bind_eq_some_iff.mp h
  have hdistinct : Distinct entries := Distinct.nil.addKeys hpairs hentries
  clear h hentries
  induction parts generalizing entries with
  | nil =>
    obtain rfl := Option.some.inj hadd
    exact hdistinct
  | cons p parts ih =>
    obtain ⟨hp, hparts⟩ := List.forall_mem_cons.mp hparts
    obtain ⟨more, hmore, hrest⟩ := Option.bind_eq_some_iff.mp hadd
    exact ih hparts more hrest (hdistinct.addPart hp hmore)

end Entries

/-! ### Readers -/

/-- All that a reader gives. -/
def Gives {α : Type} (p : α → Prop) (read : Reader α) : Prop :=
  ∀ cs a r, read cs = some (a, r) → p a

theorem distinct_of_integer? {negative : Bool} {n : Nat} {v : Toml}
    (h : integer? negative n = some v) : v.Distinct := by
  unfold integer? at h
  split at h
  · obtain ⟨-, h⟩ := Option.ite_none_right_eq_some.mp h
    obtain rfl := Option.some.inj h
    exact .integer _
  · obtain ⟨-, h⟩ := Option.ite_none_right_eq_some.mp h
    obtain rfl := Option.some.inj h
    exact .integer _

theorem distinct_of_float? {negative : Bool} {n : Nat} {e : Int} {v : Toml}
    (h : float? negative n e = some v) : v.Distinct := by
  unfold float? at h
  dsimp only at h
  split at h
  · obtain rfl := Option.some.inj h
    exact .float _
  · obtain ⟨-, h⟩ := Option.ite_none_left_eq_some.mp h
    obtain rfl := Option.some.inj h
    exact .float _

theorem readNumber_gives : Gives Distinct readNumber := by
  intro cs v r h
  unfold readNumber at h
  split at h
  · obtain ⟨digits, -, h⟩ := Option.bind_eq_some_iff.mp h
    obtain ⟨w, hw, heq⟩ := Option.bind_eq_some_iff.mp h
    obtain rfl := congrArg Prod.fst (Option.some.inj heq)
    exact distinct_of_integer? hw
  · dsimp only at h
    split at h
    · obtain rfl := congrArg Prod.fst (Option.some.inj h)
      exact .float _
    · obtain ⟨whole, -, h⟩ := Option.bind_eq_some_iff.mp h
      obtain ⟨fraction, -, h⟩ := Option.bind_eq_some_iff.mp h
      obtain ⟨exponent, -, h⟩ := Option.bind_eq_some_iff.mp h
      split at h
      · obtain ⟨w, hw, heq⟩ := Option.bind_eq_some_iff.mp h
        obtain rfl := congrArg Prod.fst (Option.some.inj heq)
        exact distinct_of_integer? hw
      · obtain ⟨w, hw, heq⟩ := Option.bind_eq_some_iff.mp h
        obtain rfl := congrArg Prod.fst (Option.some.inj heq)
        exact distinct_of_float? hw

theorem readMoment_gives : Gives Distinct readMoment := by
  intro cs v r h
  unfold readMoment at h
  split at h
  all_goals
    obtain ⟨rest, -, heq⟩ := Option.bind_eq_some_iff.mp h
    obtain rfl := congrArg Prod.fst (Option.some.inj heq)
    exact .moment

section
variable {value : Reader Toml}

theorem readEntry_gives (hvalue : Gives Distinct value) :
    Gives (fun p => p.2.Distinct) (readEntry value) := by
  intro cs p r h
  obtain ⟨key, -, h⟩ := Option.bind_eq_some_iff.mp h
  obtain ⟨rest, -, h⟩ := Option.bind_eq_some_iff.mp h
  obtain ⟨v, hv, heq⟩ := Option.bind_eq_some_iff.mp h
  obtain rfl := congrArg Prod.fst (Option.some.inj heq)
  exact hvalue _ _ _ hv

theorem readItems_gives (hvalue : Gives Distinct value) (limit : Nat) {items : List Toml}
    (hitems : ∀ v ∈ items, v.Distinct) :
    Gives (fun vs => ∀ v ∈ vs, v.Distinct) (readItems value limit items) := by
  induction limit generalizing items with
  | zero => exact fun _ _ _ => nofun
  | succ limit ih =>
    have hreverse : ∀ {vs : List Toml}, (∀ v ∈ vs, v.Distinct) → ∀ v ∈ vs.reverse, v.Distinct :=
      fun hvs v hv => hvs v (List.mem_reverse.mp hv)
    intro cs vs r h
    rw [readItems] at h
    split at h
    · obtain rfl := congrArg Prod.fst (Option.some.inj h)
      exact hreverse hitems
    · obtain ⟨⟨v, behind⟩, hv, h⟩ := Option.bind_eq_some_iff.mp h
      have hmore := List.forall_mem_cons.mpr ⟨hvalue _ _ _ hv, hitems⟩
      dsimp only at h
      split at h
      · obtain rfl := congrArg Prod.fst (Option.some.inj h)
        exact hreverse hmore
      · exact ih hmore _ _ _ h
      · contradiction

theorem readEntries_gives (hvalue : Gives Distinct value) (limit : Nat) {pairs : List (Key × Toml)}
    (hpairs : ∀ p ∈ pairs, p.2.Distinct) :
    Gives (fun ps => ∀ p ∈ ps, p.2.Distinct) (readEntries value limit pairs) := by
  induction limit generalizing pairs with
  | zero => exact fun _ _ _ => nofun
  | succ limit ih =>
    intro cs ps r h
    rw [readEntries] at h
    obtain ⟨⟨p, behind⟩, hp, h⟩ := Option.bind_eq_some_iff.mp h
    have hmore : ∀ q ∈ p :: pairs, q.2.Distinct :=
      List.forall_mem_cons.mpr ⟨readEntry_gives hvalue _ _ _ hp, hpairs⟩
    dsimp only at h
    split at h
    · obtain rfl := congrArg Prod.fst (Option.some.inj h)
      exact fun q hq => hmore q (List.mem_reverse.mp hq)
    · exact ih hmore _ _ _ h
    · contradiction

theorem readBraces_gives (hvalue : Gives Distinct value) (limit : Nat) :
    Gives Distinct (readBraces value limit) := by
  intro cs v r h
  unfold readBraces at h
  split at h
  · obtain rfl := congrArg Prod.fst (Option.some.inj h)
    exact distinct_table.mpr .nil
  · obtain ⟨pairs, hpairs, h⟩ := Option.bind_eq_some_iff.mp h
    obtain ⟨entries, hadd, heq⟩ := Option.bind_eq_some_iff.mp h
    obtain rfl := congrArg Prod.fst (Option.some.inj heq)
    refine distinct_table.mpr (Entries.Distinct.nil.addKeys ?_ hadd)
    exact readEntries_gives hvalue limit (List.forall_mem_nil _) _ _ _ hpairs

theorem readPairs_gives (hvalue : Gives Distinct value) (limit : Nat) {pairs : List (Key × Toml)}
    (hpairs : ∀ p ∈ pairs, p.2.Distinct) :
    Gives (fun ps => ∀ p ∈ ps, p.2.Distinct) (readPairs value limit pairs) := by
  induction limit generalizing pairs with
  | zero => exact fun _ _ _ => nofun
  | succ limit ih =>
    have hreverse : ∀ p ∈ pairs.reverse, p.2.Distinct := fun p hp =>
      hpairs p (List.mem_reverse.mp hp)
    intro cs ps r h
    rw [readPairs] at h
    split at h
    · obtain rfl := congrArg Prod.fst (Option.some.inj h)
      exact hreverse
    · obtain rfl := congrArg Prod.fst (Option.some.inj h)
      exact hreverse
    · obtain ⟨⟨p, behind⟩, hp, h⟩ := Option.bind_eq_some_iff.mp h
      obtain ⟨rest, -, h⟩ := Option.bind_eq_some_iff.mp h
      have hmore : ∀ q ∈ p :: pairs, q.2.Distinct :=
        List.forall_mem_cons.mpr ⟨readEntry_gives hvalue _ _ _ hp, hpairs⟩
      exact ih hmore _ _ _ h

theorem readParts_gives (hvalue : Gives Distinct value) (limit rest : Nat) {parts : List Part}
    (hparts : ∀ p ∈ parts, ∀ q ∈ p.pairs, q.2.Distinct) {cs : List Char} {found : List Part}
    (h : readParts value limit rest parts cs = some found) :
    ∀ p ∈ found, ∀ q ∈ p.pairs, q.2.Distinct := by
  induction rest generalizing parts cs with
  | zero =>
    cases cs with
    | nil =>
      obtain rfl := Option.some.inj h
      exact fun p hp => hparts p (List.mem_reverse.mp hp)
    | cons c cs => contradiction
  | succ rest ih =>
    cases cs with
    | nil =>
      obtain rfl := Option.some.inj h
      exact fun p hp => hparts p (List.mem_reverse.mp hp)
    | cons c cs =>
      obtain ⟨⟨heading, behind⟩, -, h⟩ := Option.bind_eq_some_iff.mp h
      obtain ⟨behind, -, h⟩ := Option.bind_eq_some_iff.mp h
      obtain ⟨⟨pairs, behind⟩, hpairs, h⟩ := Option.bind_eq_some_iff.mp h
      have hpart : ∀ q ∈ (Part.mk heading pairs).pairs, q.2.Distinct :=
        readPairs_gives hvalue limit (List.forall_mem_nil _) _ _ _ hpairs
      exact ih (List.forall_mem_cons.mpr ⟨hpart, hparts⟩) h

end

theorem readText_gives {cs : List Char} {v : Toml} {r : List Char}
    (h : (do let (s, r) ← readString cs; return (text s, r)) = some (v, r)) : v.Distinct := by
  obtain ⟨s, -, heq⟩ := Option.bind_eq_some_iff.mp h
  obtain rfl := congrArg Prod.fst (Option.some.inj heq)
  exact .text _

/-- A value that holds others holds such as may hold one level less. -/
theorem readValue_step {limit depth : Nat}
    (hinner : ∀ below, depth = below + 1 → Gives Distinct (readValue limit below)) :
    Gives Distinct (readValue limit depth) := by
  intro cs v r h
  unfold readValue at h
  split at h
  · exact readText_gives h
  · exact readText_gives h
  · obtain rfl := congrArg Prod.fst (Option.some.inj h)
    exact .boolean true
  · obtain rfl := congrArg Prod.fst (Option.some.inj h)
    exact .boolean false
  · split at h
    · contradiction
    · rename_i below
      obtain ⟨items, hitems, heq⟩ := Option.bind_eq_some_iff.mp h
      obtain rfl := congrArg Prod.fst (Option.some.inj heq)
      exact .list (readItems_gives (hinner below rfl) limit (List.forall_mem_nil _) _ _ _ hitems)
  · split at h
    · contradiction
    · rename_i below
      exact readBraces_gives (hinner below rfl) limit _ _ _ h
  · cases hmoment : readMoment cs with
    | some found =>
      rw [hmoment] at h
      obtain rfl := Option.some.inj h
      exact readMoment_gives _ _ _ hmoment
    | none =>
      rw [hmoment] at h
      exact readNumber_gives _ _ _ h

theorem readValue_gives (limit depth : Nat) : Gives Distinct (readValue limit depth) := by
  induction depth with
  | zero => exact readValue_step fun _ => nofun
  | succ depth ih =>
    refine readValue_step fun below hbelow => ?_
    obtain rfl := Nat.succ.inj hbelow
    exact ih

/-- Any document has each key once. -/
theorem distinct_of_parse {text : String} {document : Entries} (h : parse text = some document) :
    Entries.Distinct document := by
  unfold parse at h
  dsimp only at h
  obtain ⟨pairs, hpairs, h⟩ := Option.bind_eq_some_iff.mp h
  obtain ⟨parts, hparts, h⟩ := Option.bind_eq_some_iff.mp h
  refine Entries.distinct_ofParts ?_ ?_ h
  · exact readPairs_gives (readValue_gives _ _) _ (List.forall_mem_nil _) _ _ _ hpairs
  · exact readParts_gives (readValue_gives _ _) _ _ (List.forall_mem_nil _) hparts

end RemoteDesk.Toml
