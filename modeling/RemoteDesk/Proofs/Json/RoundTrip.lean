import RemoteDesk.Json.Parser
import RemoteDesk.Proofs.Json.Scalar

/-!
Reading undoes printing. A value without floats reads back from its compact text, and the reader
stops right behind it. Arrays and objects go by the same argument at every depth, with what follows
a value as part of the statement.
-/
namespace RemoteDesk.Json

/-- Members in increasing key order, one to a key. -/
def Members.Ordered (ms : Members) : Prop := ms.Pairwise fun a b => a.1 < b.1

/-- Values without floats: integers within 64 bits, members in order, and arrays and objects nested
at most so deep. -/
inductive Plain : Nat → Json → Prop where
  | null (depth : Nat) : Plain depth .null
  | bool (depth : Nat) (b : Bool) : Plain depth (.bool b)
  | int (depth : Nat) (n : Int) (least : -9223372036854775808 ≤ n)
      (most : n ≤ 18446744073709551615) : Plain depth (.num (.int n))
  | str (depth : Nat) (s : String) : Plain depth (.str s)
  | arr (depth : Nat) (items : List Json) (plain : ∀ v ∈ items, Plain depth v) :
      Plain (depth + 1) (.arr items)
  | obj (depth : Nat) (members : Members) (ordered : members.Ordered)
      (plain : ∀ m ∈ members, Plain depth m.2) : Plain (depth + 1) (.obj members)

/-! ### Members in order -/

theorem Members.insertNew_least {key : String} {value : Json} {ms : Members}
    (h : ∀ m ∈ ms, key < m.1) : ms.insertNew key value = (key, value) :: ms := by
  cases ms with
  | nil => rfl
  | cons m ms => rw [insertNew, if_pos (h m List.mem_cons_self)]

/-- Members read one after the other are those that were written. -/
theorem Members.ofReversed_reverse {ms : Members} (h : ms.Ordered) :
    ofReversed ms.reverse = ms := by
  rw [ofReversed, List.foldl_reverse]
  induction ms with
  | nil => rfl
  | cons m ms ih =>
    have hm := List.pairwise_cons.mp h
    rw [List.foldr_cons, ih hm.2]
    exact insertNew_least hm.1

theorem Members.ofList_eq {ms : Members} (h : ms.Ordered) : ofList ms = ms := ofReversed_reverse h

/-! ### Texts of items and members -/

/-- Texts with a comma between them. -/
def separated : List Bytes → Bytes
  | [] => []
  | t :: ts => t ++ ts.flatMap (0x2C :: ·)

theorem length_le_of_mem_separated {t : Bytes} {ts : List Bytes} (h : t ∈ ts) :
    t.length ≤ (separated ts).length := by
  cases ts with
  | nil => contradiction
  | cons u us =>
    rw [separated, List.length_append]
    rcases List.mem_cons.mp h with rfl | h
    · exact Nat.le_add_right ..
    · obtain ⟨before, after, rfl⟩ := List.append_of_mem h
      simp only [List.flatMap_append, List.flatMap_cons, List.length_append, List.length_cons]
      omega

theorem length_le_separated (ts : List Bytes) : ts.length ≤ (separated ts).length + 1 := by
  have hcommas : ∀ us : List Bytes, us.length ≤ (us.flatMap (0x2C :: ·)).length := by
    intro us
    induction us with
    | nil => exact Nat.le_refl _
    | cons u us ih =>
      simp only [List.flatMap_cons, List.length_append, List.length_cons]
      omega
  cases ts with
  | nil => exact Nat.zero_le _
  | cons t ts =>
    have := hcommas ts
    simp only [separated, List.length_append, List.length_cons]
    omega

theorem renderItems_eq (vs : List Json) : renderItems vs = separated (vs.map render) := by
  induction vs with
  | nil => rfl
  | cons v vs ih =>
    cases vs with
    | nil => simp [renderItems, separated]
    | cons w vs => rw [renderItems, ih]; simp [separated]

/-- The text of a member. -/
def renderMember (m : String × Json) : Bytes := renderString m.1 ++ 0x3A :: render m.2

theorem renderMembers_eq (ms : Members) : renderMembers ms = separated (ms.map renderMember) := by
  induction ms with
  | nil => rfl
  | cons m ms ih =>
    cases ms with
    | nil => simp [renderMembers, separated, renderMember]
    | cons n ms => rw [renderMembers, ih]; simp [separated, renderMember]

theorem renderItems_cons (v : Json) (vs : List Json) :
    renderItems (v :: vs) = render v ++ vs.flatMap fun v => 0x2C :: render v := by
  rw [renderItems_eq, List.map_cons, separated, List.flatMap_map]

theorem renderMembers_cons (m : String × Json) (ms : Members) :
    renderMembers (m :: ms) = renderMember m ++ ms.flatMap fun m => 0x2C :: renderMember m := by
  rw [renderMembers_eq, List.map_cons, separated, List.flatMap_map]

theorem skipBlank_cons {b : UInt8} (h : isBlank b = false) (r : Bytes) :
    skipBlank (b :: r) = b :: r := by
  simp [skipBlank, h]

theorem not_blank_of_isDigit {b : UInt8} (h : isDigit b = true) :
    isBlank b = false ∧ b ≠ 0x5D := by
  simp only [isDigit, Bool.and_eq_true, decide_eq_true_eq, UInt8.le_iff_toNat_le] at h
  have hne : ∀ c : UInt8, c.toNat < 0x30 ∨ 0x39 < c.toNat → b ≠ c := by
    rintro c hc rfl
    have hl : (0x30 : UInt8).toNat = 0x30 := rfl
    have hu : (0x39 : UInt8).toNat = 0x39 := rfl
    omega
  have h20 := hne 0x20 (by decide)
  have h0a := hne 0x0A (by decide)
  have h09 := hne 0x09 (by decide)
  have h0d := hne 0x0D (by decide)
  exact ⟨by simp [isBlank, h20, h0a, h09, h0d], hne 0x5D (by decide)⟩

/-- The text of a value begins with a byte of its own, which neither is blank nor ends an array. -/
theorem render_head {depth : Nat} {v : Json} (h : Plain depth v) :
    ∃ b bs, render v = b :: bs ∧ isBlank b = false ∧ b ≠ 0x5D := by
  cases h with
  | null => exact ⟨0x6E, [0x75, 0x6C, 0x6C], rfl, by decide, by decide⟩
  | bool _ b =>
    cases b with
    | true => exact ⟨0x74, [0x72, 0x75, 0x65], rfl, by decide, by decide⟩
    | false => exact ⟨0x66, [0x61, 0x6C, 0x73, 0x65], rfl, by decide, by decide⟩
  | int _ n least most =>
    rw [render]
    rcases renderNumber_int n [] least most ends_nil with ⟨bs, hb, -⟩ | ⟨b, bs, hb, hd, -⟩
    · exact ⟨0x2D, bs, hb, by decide, by decide⟩
    · exact ⟨b, bs, hb, not_blank_of_isDigit hd⟩
  | str _ s => exact ⟨0x22, _, by rw [render, renderString], by decide, by decide⟩
  | arr _ items => exact ⟨0x5B, _, by rw [render], by decide, by decide⟩
  | obj _ members => exact ⟨0x7B, _, by rw [render], by decide, by decide⟩

/-! ### Reading items and members -/

/-- A reader takes a value off its text, whatever follows. -/
def Reads (item : Reader Json) (v : Json) : Prop :=
  ∀ r, Ends r → item (render v ++ r) = .ok (v, r)

/-- Whatever more of them there are, a comma or the closing sign follows. -/
theorem ends_flatMap {β : Type} (f : β → Bytes) (l : List β) {close : UInt8}
    (h : close = 0x5D ∨ close = 0x7D) (r : Bytes) :
    Ends (l.flatMap (fun x => 0x2C :: f x) ++ close :: r) := by
  cases l with
  | nil => exact fun b hb => .inr (Option.some.inj hb ▸ h)
  | cons x l => exact fun b hb => .inl (Option.some.inj hb).symm

/-- The items behind the first one are read up to the closing bracket. -/
theorem readItems_render (item : Reader Json) (depth : Nat) (vs done : List Json) (limit : Nat)
    (r : Bytes) (hp : ∀ v ∈ vs, Plain depth v) (hi : ∀ v ∈ vs, Reads item v)
    (hl : vs.length < limit) :
    readItems item limit done (vs.flatMap (fun v => 0x2C :: render v) ++ 0x5D :: r) =
      .ok (done.reverse ++ vs, r) := by
  induction vs generalizing done limit with
  | nil =>
    obtain ⟨limit, rfl⟩ := Nat.exists_eq_add_one.mpr (Nat.zero_lt_of_lt hl)
    rw [List.flatMap_nil, List.nil_append, readItems, skipBlank_cons (by decide)]
    simp
  | cons v vs ih =>
    obtain ⟨limit, rfl⟩ := Nat.exists_eq_add_one.mpr (Nat.zero_lt_of_lt hl)
    obtain ⟨b, bs, hb, hblank, hend⟩ := render_head (hp v List.mem_cons_self)
    have hread := hi v List.mem_cons_self _ (ends_flatMap render vs (.inl rfl) r)
    rw [hb, List.cons_append] at hread
    rw [List.flatMap_cons, List.append_assoc, List.cons_append, readItems,
      skipBlank_cons (by decide), hb, List.cons_append]
    simp only [skipBlank_cons hblank]
    split
    · contradiction
    · rename_i heq
      exact absurd (List.cons.inj heq).1 hend
    · simp only [hread, bind, Except.bind]
      rw [ih (v :: done) limit (fun v h => hp v (List.mem_cons_of_mem _ h))
        (fun v h => hi v (List.mem_cons_of_mem _ h)) (by simp only [List.length_cons] at hl; omega)]
      simp

theorem readArray_render (item : Reader Json) (depth : Nat) (vs : List Json) (limit : Nat)
    (r : Bytes) (hp : ∀ v ∈ vs, Plain depth v) (hi : ∀ v ∈ vs, Reads item v)
    (hl : vs.length ≤ limit) :
    readArray item limit (renderItems vs ++ 0x5D :: r) = .ok (vs, r) := by
  cases vs with
  | nil =>
    rw [renderItems, List.nil_append, readArray, skipBlank_cons (by decide)]
    rfl
  | cons v vs =>
    obtain ⟨b, bs, hb, hblank, hend⟩ := render_head (hp v List.mem_cons_self)
    have hread := hi v List.mem_cons_self _ (ends_flatMap render vs (.inl rfl) r)
    rw [hb, List.cons_append] at hread
    rw [renderItems_cons, List.append_assoc, hb, List.cons_append, readArray, skipBlank_cons hblank]
    split
    · contradiction
    · rename_i heq
      exact absurd (List.cons.inj heq).1 hend
    · simp only [hread, bind, Except.bind]
      rw [readItems_render item depth vs [v] limit r (fun v h => hp v (List.mem_cons_of_mem _ h))
        (fun v h => hi v (List.mem_cons_of_mem _ h)) (by simp only [List.length_cons] at hl; omega)]
      simp

theorem readColon_colon (r : Bytes) : readColon (0x3A :: r) = .ok r := by
  rw [readColon, skipBlank_cons (by decide)]
  rfl

/-- Behind the opening quote of a member there is its key, up to the colon. -/
theorem readString_renderMember (m : String × Json) (r : Bytes) :
    ∃ bs, renderMember m = 0x22 :: bs ∧
      readString (bs ++ r) = .ok (m.1, 0x3A :: (render m.2 ++ r)) := by
  refine ⟨(utf8 m.1).flatMap escapeByte ++ 0x22 :: 0x3A :: render m.2,
    by simp [renderMember, renderString], ?_⟩
  rw [List.append_assoc, List.cons_append, List.cons_append, readString_escaped]

/-- A member is read behind the opening quote of its key. -/
theorem readMember_render (item : Reader Json) (m : String × Json) (hi : Reads item m.2) {r : Bytes}
    (hr : Ends r) :
    ∃ bs, renderMember m = 0x22 :: bs ∧ readMember item (bs ++ r) = .ok (m, r) := by
  obtain ⟨bs, hb, hkey⟩ := readString_renderMember m r
  refine ⟨bs, hb, ?_⟩
  simp only [readMember, hkey, readColon_colon, hi r hr, bind, Except.bind, pure, Except.pure]

/-- The members behind the first one are read up to the closing brace. -/
theorem readMembers_render (item : Reader Json) (ms done : Members) (limit : Nat) (r : Bytes)
    (hi : ∀ m ∈ ms, Reads item m.2) (hl : ms.length < limit) :
    readMembers item limit done (ms.flatMap (fun m => 0x2C :: renderMember m) ++ 0x7D :: r) =
      .ok (ms.reverse ++ done, r) := by
  induction ms generalizing done limit with
  | nil =>
    obtain ⟨limit, rfl⟩ := Nat.exists_eq_add_one.mpr (Nat.zero_lt_of_lt hl)
    rw [List.flatMap_nil, List.nil_append, readMembers, skipBlank_cons (by decide)]
    simp
  | cons m ms ih =>
    obtain ⟨limit, rfl⟩ := Nat.exists_eq_add_one.mpr (Nat.zero_lt_of_lt hl)
    obtain ⟨bs, hb, hread⟩ := readMember_render item m (hi m List.mem_cons_self)
      (ends_flatMap renderMember ms (.inr rfl) r)
    rw [List.flatMap_cons, List.append_assoc, List.cons_append, readMembers,
      skipBlank_cons (by decide), hb, List.cons_append]
    simp only [skipBlank_cons (show isBlank 0x22 = false by decide), hread, bind, Except.bind]
    rw [ih (m :: done) limit (fun m h => hi m (List.mem_cons_of_mem _ h))
      (by simp only [List.length_cons] at hl; omega)]
    simp

/-- The members of an object may be written in any order. -/
theorem readObject_render (item : Reader Json) (ms : Members) (limit : Nat) (r : Bytes)
    (hi : ∀ m ∈ ms, Reads item m.2) (hl : ms.length ≤ limit) :
    readObject item limit (renderMembers ms ++ 0x7D :: r) = .ok (Members.ofList ms, r) := by
  cases ms with
  | nil =>
    rw [renderMembers, List.nil_append, readObject, skipBlank_cons (by decide)]
    rfl
  | cons m ms =>
    obtain ⟨bs, hb, hread⟩ := readMember_render item m (hi m List.mem_cons_self)
      (ends_flatMap renderMember ms (.inr rfl) r)
    rw [renderMembers_cons, List.append_assoc, hb, List.cons_append, readObject,
      skipBlank_cons (by decide)]
    simp only [hread, bind, Except.bind]
    rw [readMembers_render item ms [m] limit r (fun m h => hi m (List.mem_cons_of_mem _ h))
      (by simp only [List.length_cons] at hl; omega)]
    have hrev : ms.reverse ++ [m] = (m :: ms).reverse := List.reverse_cons.symm
    simp only [hrev, Members.ofList, pure, Except.pure]

/-! ### Reading values -/

/-- No other kind of value begins with a digit. -/
theorem readValue_digit (limit depth : Nat) {b : UInt8} (h : isDigit b = true) (r : Bytes) :
    readValue limit depth (b :: r) = do
      let (n, r) ← readNumber false (b :: r)
      return (.num n, r) := by
  have hne : ∀ c : UInt8, isDigit c = false → b ≠ c := by
    rintro c hc rfl
    exact Bool.noConfusion (h.symm.trans hc)
  rw [readValue, skipBlank_cons (not_blank_of_isDigit h).1]
  split
  case h_9 b' r' _ _ _ _ _ _ _ heq =>
    obtain ⟨rfl, rfl⟩ := List.cons.inj heq
    rw [if_pos h]
  all_goals
    rename_i heq
    first
    | contradiction
    | exact absurd (List.cons.inj heq).1 (hne _ (by decide))

theorem length_member_le {m : String × Json} {ms : Members} (h : m ∈ ms) :
    (render m.2).length ≤ (render (.obj ms)).length := by
  have := length_le_of_mem_separated (List.mem_map_of_mem (f := renderMember) h)
  rw [← renderMembers_eq, renderMember, List.length_append, List.length_cons] at this
  rw [render, List.length_cons, List.length_append]
  omega

theorem length_members_le (ms : Members) : ms.length < (render (.obj ms)).length := by
  have := length_le_separated (ms.map renderMember)
  rw [List.length_map, ← renderMembers_eq] at this
  rw [render, List.length_cons, List.length_append, List.length_singleton]
  omega

/-- An object is read off its text when its values are, in whatever order it was written. -/
theorem readValue_object (limit depth : Nat) (ms : Members)
    (hi : ∀ m ∈ ms, (render m.2).length ≤ limit → Reads (readValue limit depth) m.2)
    (hl : (render (.obj ms)).length ≤ limit) (r : Bytes) :
    readValue limit (depth + 1) (render (.obj ms) ++ r) =
      .ok (.obj (Members.ofList ms), r) := by
  have hread : ∀ m ∈ ms, Reads (readValue limit depth) m.2 := fun m hm =>
    hi m hm (Nat.le_trans (length_member_le hm) hl)
  have hcount := length_members_le ms
  rw [render, List.cons_append, List.append_assoc, readValue, skipBlank_cons (by decide)]
  simp only [List.cons_append, List.nil_append,
    readObject_render _ ms limit r hread (by omega), bind, Except.bind, pure, Except.pure]

/-- A value is read off its text, whatever follows. By induction on the nesting: the reader of the
items is the reader of the level below. -/
theorem readValue_render {depth : Nat} {v : Json} (hv : Plain depth v) (limit : Nat)
    (hl : (render v).length ≤ limit) : Reads (readValue limit depth) v := by
  induction hv with
  | null depth =>
    intro r hr
    rw [readValue]
    rfl
  | bool depth b =>
    intro r hr
    rw [readValue]
    cases b <;> rfl
  | int depth n least most =>
    intro r hr
    rw [render]
    rcases renderNumber_int n r least most hr with ⟨bs, hb, hread⟩ | ⟨b, bs, hb, hd, hread⟩
    · rw [hb, List.cons_append, readValue, skipBlank_cons (by decide)]
      simp only [hread, bind, Except.bind, pure, Except.pure]
    · rw [hb, List.cons_append, readValue_digit limit depth hd]
      rw [List.cons_append] at hread
      simp only [hread, bind, Except.bind, pure, Except.pure]
  | str depth s =>
    intro r hr
    rw [render, renderString, List.cons_append, List.append_assoc, readValue,
      skipBlank_cons (by decide)]
    simp only [List.cons_append, List.nil_append, readString_escaped, bind, Except.bind, pure,
      Except.pure]
  | arr depth items hp ih =>
    intro r hr
    rw [render, List.length_cons, List.length_append, List.length_singleton] at hl
    have hcount := length_le_separated (items.map render)
    rw [List.length_map, ← renderItems_eq] at hcount
    have hi : ∀ v ∈ items, Reads (readValue limit depth) v := fun v h => ih v h (by
      have := length_le_of_mem_separated (List.mem_map_of_mem (f := render) h)
      rw [← renderItems_eq] at this
      omega)
    rw [render, List.cons_append, List.append_assoc, readValue, skipBlank_cons (by decide)]
    simp only [List.cons_append, List.nil_append,
      readArray_render _ depth items limit r hp hi (by omega), bind, Except.bind, pure, Except.pure]
  | obj depth ms ordered hp ih =>
    intro r hr
    rw [readValue_object limit depth ms ih hl r, Members.ofList_eq ordered]

/-- A reader that takes a whole text spells what it reads. -/
theorem readAll_eq_ok {α : Type} {reader : Reader α} {text : Bytes} {a : α}
    (h : reader (text ++ []) = .ok (a, [])) : readAll reader text = .ok a := by
  rw [List.append_nil] at h
  simp only [readAll, h, bind, Except.bind]
  rfl

/-- A text that was printed spells the value that was printed. -/
theorem parse_render {v : Json} (h : Plain maxDepth v) : parse (render v) = .ok v :=
  readAll_eq_ok (readValue_render h (render v).length (Nat.le_refl _) [] ends_nil)

/-- Members may be written in any order: the text spells the object that has them. -/
theorem parse_object {ms : Members} (h : ∀ m ∈ ms, Plain 126 m.2) :
    parse (render (.obj ms)) = .ok (.object ms) :=
  readAll_eq_ok (readValue_object _ 126 ms (fun m hm hl => readValue_render (h m hm) _ hl)
    (Nat.le_refl _) [])

end RemoteDesk.Json
