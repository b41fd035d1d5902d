import RemoteDesk.Json.Record
import RemoteDesk.Proofs.Json.Reading

/-!
Records in text. Members that were written from a record fill it in again, in whatever order they
were written; and a property that every field's reader keeps holds of each record that is read,
whichever of the two forms the text has.
-/
namespace RemoteDesk.Json

variable {α ρ : Type}

/-! ### Values of a wanted type -/

section
variable {reader : Reader α} {b : UInt8} {bs r : Bytes}

theorem readText_render (wanted s : String) (r : Bytes) :
    readText wanted (render (.str s) ++ r) = .ok (s, r) := by
  rw [render, renderString, List.cons_append, List.append_assoc, readText,
    skipBlank_cons (by decide)]
  exact readString_escaped s r

/-- Text that does not begin like null is left to the reader. -/
theorem readOption_cons (hblank : isBlank b = false) (hnull : b ≠ 0x6E) {a : α}
    (h : reader (b :: bs) = .ok (a, r)) : readOption reader (b :: bs) = .ok (some a, r) := by
  rw [readOption, skipBlank_cons hblank]
  split
  · rename_i heq
    exact absurd (List.cons.inj heq).1 hnull
  · simp only [h, bind, Except.bind, pure, Except.pure]

theorem readOption_text (wanted s : String) (r : Bytes) :
    readOption (readText wanted) (render (.str s) ++ r) = .ok (some s, r) := by
  have h := readText_render wanted s r
  rw [render, renderString, List.cons_append] at h ⊢
  exact readOption_cons (by decide) (by decide) h

theorem readMap_brace (limit depth : Nat) (bs : Bytes) :
    readMap limit (depth + 1) (0x7B :: bs) = readObject (readValue limit depth) limit bs := rfl

theorem readMap_render {limit depth : Nat} {ms : Members} (hp : Plain depth (.obj ms))
    (hl : (render (.obj ms)).length ≤ limit) {r : Bytes} (hr : Ends r) :
    readMap limit depth (render (.obj ms) ++ r) = .ok (ms, r) := by
  have h := readValue_render hp limit hl r hr
  rw [render, List.cons_append] at h ⊢
  cases hp with
  | obj depth _ _ _ =>
    rw [readValue, skipBlank_cons (by decide)] at h
    obtain ⟨⟨ms', r'⟩, hobject, h⟩ := bind_eq_ok h
    obtain ⟨hms, rfl⟩ := Prod.mk.inj (Except.ok.inj h)
    obtain rfl := Json.obj.inj hms
    rw [readMap_brace, hobject]

/-- A name is the text of a choice. -/
theorem readChoice_render {choices : List (String × α)} {name : String} {a : α}
    (h : choices.lookup name = some a) (depth : Nat) (r : Bytes) :
    readChoice choices depth (render (.str name) ++ r) = .ok (a, r) := by
  have hchosen : readChosen choices (render (.str name) ++ r) = .ok (a, r) := by
    rw [readChosen]
    simp only [readText_render, chosen, h, bind, Except.bind]
  rw [render, renderString, List.cons_append] at hchosen ⊢
  rw [readChoice, skipBlank_cons (by decide)]
  exact hchosen

theorem haltMismatched_ne_ok (wanted : String) (bs : Bytes) (x : α × Bytes) :
    haltMismatched wanted bs ≠ .ok x := by
  intro h
  unfold haltMismatched at h
  split at h
  · contradiction
  · contradiction
  · contradiction
  · obtain ⟨y, -, h⟩ := bind_eq_ok h
    contradiction

/-- What is read as a map without floats is plain. -/
theorem plain_of_readMap {limit depth : Nat} {ms : Members} {bs r : Bytes}
    (h : readMap limit depth bs = .ok (ms, r)) (hf : (Json.obj ms).Floatless) :
    Plain depth (.obj ms) := by
  unfold readMap at h
  split at h
  · contradiction
  · rename_i bs' depth _
    have hvalue : readValue limit (depth + 1) (0x7B :: bs') = .ok (.obj ms, r) := by
      rw [readValue, skipBlank_cons (by decide)]
      simp only [h, bind, Except.bind, pure, Except.pure]
    exact plain_of_readValue hvalue hf
  · exact absurd h (haltMismatched_ne_ok _ _ _)

/-- What is read is nothing or what the reader reads. -/
theorem of_readOption {P : α → Prop} (hread : ∀ bs a r, reader bs = .ok (a, r) → P a)
    {a : α} (h : readOption reader bs = .ok (some a, r)) : P a := by
  unfold readOption at h
  split at h
  · obtain ⟨r', -, h⟩ := bind_eq_ok h
    exact nomatch value_eq h
  · obtain ⟨⟨a', r'⟩, ha, h⟩ := bind_eq_ok h
    rw [← Option.some.inj (value_eq h)]
    exact hread _ a' r' ha

end

/-! ### Records that were written -/

section
variable {slots : List (Slot ρ)} {ms ns : Members} {value middle result : ρ}

/-- Members written one after the other, and what they make of a record: each is the value of a
field, off which the field's reader takes what fills it in. -/
inductive Fills (slots : List (Slot ρ)) : Members → ρ → ρ → Prop where
  | nil (value : ρ) : Fills slots [] value value
  | cons {m : String × Json} {s : Slot ρ} {fill : ρ → ρ} {ms : Members} {value result : ρ}
      (field : slots.find? (fun s => s.name == m.1) = some s)
      (reads : ∀ r, Ends r → s.read (render m.2 ++ r) = .ok (fill, r))
      (rest : Fills slots ms (fill value) result) : Fills slots (m :: ms) value result

theorem Fills.append (h : Fills slots ms value middle) (h' : Fills slots ns middle result) :
    Fills slots (ms ++ ns) value result := by
  induction h with
  | nil => exact h'
  | cons field reads _ ih => exact .cons field reads (ih h')

/-- One member, read as the value of its field. -/
theorem Fills.single {s : Slot ρ} {name : String} {v : Json} {reader : Reader α}
    {a : α} (fill : α → ρ → ρ) (field : slots.find? (fun s => s.name == name) = some s)
    (hs : s.read = (Slot.of name reader fill).read)
    (reads : ∀ r, Ends r → reader (render v ++ r) = .ok (a, r)) :
    Fills slots [(name, v)] value (fill a value) := by
  have hfill : ∀ r, Ends r → s.read (render v ++ r) = .ok (fill a, r) := by
    intro r hr
    simp only [hs, Slot.of, reads r hr, bind, Except.bind, pure, Except.pure]
  exact .cons field hfill (.nil _)

/-- A member behind its opening quote is read into its field. -/
theorem readSlot_render {m : String × Json} {s : Slot ρ} {fill : ρ → ρ}
    (field : slots.find? (fun s => s.name == m.1) = some s)
    (reads : ∀ r, Ends r → s.read (render m.2 ++ r) = .ok (fill, r)) {r : Bytes} (hr : Ends r) :
    ∃ bs, renderMember m = 0x22 :: bs ∧ ∀ limit names value, m.1 ∉ names →
      readSlot slots (limit + 1) names value (bs ++ r) =
        readSlots slots limit false (m.1 :: names) (fill value) r := by
  obtain ⟨bs, hb, hkey⟩ := readString_renderMember m r
  refine ⟨bs, hb, fun limit names value hfresh => ?_⟩
  have hnew : names.contains m.1 = false := by simpa using hfresh
  simp only [readSlot, hkey, field, hnew, readColon_colon, reads r hr, bind, Except.bind]
  rfl

theorem readSlots_comma (limit : Nat) (names : List String) (value : ρ) (bs : Bytes) :
    readSlots slots (limit + 1) false names value (0x2C :: 0x22 :: bs) =
      readSlot slots limit names value bs := rfl

theorem readSlots_first (limit : Nat) (names : List String) (value : ρ) (bs : Bytes) :
    readSlots slots (limit + 1) true names value (0x22 :: bs) =
      readSlot slots limit names value bs := rfl

theorem readSlots_brace {names : List String} (h : firstUnread? slots names = none) (limit : Nat)
    (first : Bool) (value : ρ) (bs : Bytes) :
    readSlots slots (limit + 1) first names value (0x7D :: bs) = .ok (value, bs) := by
  rw [readSlots, skipBlank_cons (by decide)]
  simp only [h]

/-- The members behind the first one are read up to the closing brace. By induction on them: the
names that have been read keep the last member's name in front. -/
theorem Fills.readSlots (h : Fills slots ms value result) {names : List String} (limit : Nat)
    (r : Bytes) (hnames : ((ms.map (·.1)).reverse ++ names).Nodup)
    (hneeded : firstUnread? slots ((ms.map (·.1)).reverse ++ names) = none)
    (hl : 2 * ms.length < limit) :
    Json.readSlots slots limit false names value
      (ms.flatMap (fun m => 0x2C :: renderMember m) ++ 0x7D :: r) = .ok (result, r) := by
  induction h generalizing names limit with
  | nil value =>
    obtain ⟨limit, rfl⟩ := Nat.exists_eq_add_one.mpr (Nat.zero_lt_of_lt hl)
    exact readSlots_brace hneeded limit false value r
  | @cons m s fill ms value result field reads rest ih =>
    rw [List.map_cons, List.reverse_cons, List.append_assoc, List.singleton_append]
      at hnames hneeded
    have hfresh : m.1 ∉ names := (List.nodup_cons.mp (List.nodup_append.mp hnames).2.1).1
    obtain ⟨limit, rfl⟩ : ∃ k, limit = k + 2 := ⟨limit - 2, by
      rw [List.length_cons] at hl
      omega⟩
    obtain ⟨bs, hb, hread⟩ := readSlot_render field reads
      (ends_flatMap renderMember ms (.inr rfl) r)
    rw [List.flatMap_cons, List.append_assoc, List.cons_append, hb, List.cons_append,
      readSlots_comma, hread limit names value hfresh]
    exact ih limit hnames hneeded (by rw [List.length_cons] at hl; omega)

theorem readRecord_brace (name : String) (slots : Nat → List (Slot ρ)) (start : ρ) (depth : Nat)
    (bs : Bytes) :
    readRecord name slots start (depth + 1) (0x7B :: bs) =
      readSlots (slots depth) (2 * bs.length + 2) true [] start bs := rfl

/-- A record is read off the object that it was written as, whatever the order of the members. -/
theorem Fills.readRecord {slots : Nat → List (Slot ρ)} {depth : Nat}
    (h : Fills (slots depth) ms value result) (hnames : (ms.map (·.1)).Nodup)
    (hneeded : ∀ s ∈ slots depth, s.needed → s.name ∈ ms.map (·.1)) (name : String) (r : Bytes) :
    Json.readRecord name slots value (depth + 1) (render (.obj ms) ++ r) = .ok (result, r) := by
  have hnone : firstUnread? (slots depth) (ms.map (·.1)).reverse = none := by
    rw [firstUnread?, Option.map_eq_none_iff, List.find?_eq_none]
    intro s hs
    rw [Bool.and_eq_true, Bool.not_eq_true', List.contains_eq_mem, decide_eq_false_iff_not,
      List.mem_reverse]
    exact fun hunread => hunread.2 (hneeded s hs hunread.1)
  rw [render, List.cons_append, List.append_assoc, List.singleton_append, readRecord_brace]
  cases h with
  | nil => exact readSlots_brace hnone _ true value r
  | @cons m s fill ms _ _ field reads rest =>
    have hcount := length_members_le (m :: ms)
    rw [render, List.length_cons, List.length_cons, List.length_append, List.length_singleton]
      at hcount
    obtain ⟨bs, hb, hread⟩ := readSlot_render field reads
      (ends_flatMap renderMember ms (.inr rfl) r)
    have hreversed := (List.reverse_perm _).nodup_iff.mpr hnames
    rw [List.map_cons, List.reverse_cons] at hnone hreversed
    have hrest := rest.readSlots (2 * (renderMembers (m :: ms) ++ 0x7D :: r).length) r
      hreversed hnone (by rw [List.length_append, List.length_cons]; omega)
    rw [renderMembers_cons, List.append_assoc, hb, List.cons_append] at hrest ⊢
    rw [readSlots_first, hread _ [] value List.not_mem_nil, hrest]

end

/-! ### Records that are read -/

section
variable {P : ρ → Prop} {slots : List (Slot ρ)}

/-- Whatever is filled into the field, the property stays. -/
def Slot.Keeps (P : ρ → Prop) (s : Slot ρ) : Prop :=
  ∀ bs fill r, s.read bs = .ok (fill, r) → ∀ value, P value → P (fill value)

theorem Slot.keeps_of {name : String} {reader : Reader α} {fill : α → ρ → ρ}
    (h : ∀ bs a r, reader bs = .ok (a, r) → ∀ value, P value → P (fill a value)) :
    (Slot.of name reader fill).Keeps P := by
  intro bs fill' r hread
  obtain ⟨⟨a, r'⟩, ha, hread⟩ := bind_eq_ok hread
  rw [← value_eq hread]
  exact h bs a r' ha

theorem Slot.keeps_free {name : String} {reader : Reader α} {fill : α → ρ → ρ}
    (h : ∀ bs a r, reader bs = .ok (a, r) → ∀ value, P value → P (fill a value)) :
    (Slot.free name reader fill).Keeps P := by
  have hof : (Slot.of name reader fill).Keeps P := Slot.keeps_of h
  exact hof

/-- Members up to the closing brace, and one member with those behind it. -/
theorem readSlots_keeps (hkeeps : ∀ s ∈ slots, s.Keeps P) (limit : Nat) :
    (∀ first names value bs result r,
      readSlots slots limit first names value bs = .ok (result, r) → P value → P result) ∧
    ∀ names value bs result r,
      readSlot slots limit names value bs = .ok (result, r) → P value → P result := by
  induction limit with
  | zero => exact ⟨nofun, nofun⟩
  | succ limit ih =>
    refine ⟨fun first names value bs result r h hp => ?_, fun names value bs result r h hp => ?_⟩
    · unfold readSlots at h
      split at h
      · contradiction
      · split at h
        · contradiction
        · rw [← value_eq h]
          exact hp
      · split at h
        · split at h
          · exact ih.2 _ _ _ _ _ h hp
          · contradiction
        · split at h
          · contradiction
          · split at h
            · contradiction
            · exact ih.2 _ _ _ _ _ h hp
            · contradiction
            · contradiction
    · obtain ⟨⟨name, r₁⟩, -, h⟩ := bind_eq_ok h
      dsimp only at h
      split at h
      · obtain ⟨r₂, -, h⟩ := bind_eq_ok h
        obtain ⟨r₃, -, h⟩ := bind_eq_ok h
        exact ih.1 _ _ _ _ _ _ h hp
      · rename_i s hs
        split at h
        · split at h <;> contradiction
        · obtain ⟨r₂, -, h⟩ := bind_eq_ok h
          obtain ⟨⟨fill, r₃⟩, hfill, h⟩ := bind_eq_ok h
          exact ih.1 _ _ _ _ _ _ h (hkeeps s (List.mem_of_find?_eq_some hs) _ _ _ hfill _ hp)

theorem readElements_keeps (hkeeps : ∀ s ∈ slots, s.Keeps P) {wanted : String} {place : Nat}
    {value result : ρ} {bs r : Bytes}
    (h : readElements wanted slots place value bs = .ok (result, r)) (hp : P value) :
    P result := by
  induction slots generalizing place value bs with
  | nil =>
    obtain ⟨r', -, h⟩ := bind_eq_ok h
    rw [← value_eq h]
    exact hp
  | cons s slots ih =>
    obtain ⟨hs, hslots⟩ := List.forall_mem_cons.mp hkeeps
    unfold readElements at h
    split at h
    · contradiction
    · split at h
      · contradiction
      · rw [← value_eq h]
        exact hp
    · split at h
      · obtain ⟨⟨fill, r'⟩, hfill, h⟩ := bind_eq_ok h
        exact ih hslots h (hs _ _ _ hfill _ hp)
      · split at h
        · contradiction
        · split at h
          · contradiction
          · contradiction
          · obtain ⟨⟨fill, r'⟩, hfill, h⟩ := bind_eq_ok h
            exact ih hslots h (hs _ _ _ hfill _ hp)

/-- A property that every field keeps holds of the record, whether it is written as an object or as
the list of its values. -/
theorem readRecord_keeps {slots : Nat → List (Slot ρ)} {depth : Nat}
    (hkeeps : ∀ s ∈ slots depth, s.Keeps P) {name : String} {start result : ρ} {bs r : Bytes}
    (h : readRecord name slots start (depth + 1) bs = .ok (result, r)) (hp : P start) :
    P result := by
  unfold readRecord at h
  split at h
  · contradiction
  · contradiction
  · rename_i hdepth
    obtain rfl := Nat.succ.inj hdepth
    exact readElements_keeps hkeeps h hp
  · rename_i hdepth
    obtain rfl := Nat.succ.inj hdepth
    exact (readSlots_keeps hkeeps _).1 _ _ _ _ _ _ h hp
  · exact absurd h (haltMismatched_ne_ok _ _ _)

end

end RemoteDesk.Json
