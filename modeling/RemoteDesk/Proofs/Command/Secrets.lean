import Mathlib.Data.List.Forall2
import RemoteDesk.Proofs.Command.Reading

/-!
Frames that differ in their secrets: a text under `password` in the payload, and a text as the
token. They are read alike. Either both are refused for the same fault, or they hold the same command
but for the token, and that asks for the same but for the password.
-/
namespace RemoteDesk

open Json Desktop

/-! ### Reading twice -/

section
variable {ε α β γ δ : Type} {R : α → β → Prop} {S : γ → δ → Prop}

/-- Both fail for the same reason, or both succeed and the results are related. -/
def Both (R : α → β → Prop) (x : Except ε α) (y : Except ε β) : Prop :=
  (∃ e, x = .error e ∧ y = .error e) ∨ ∃ a b, x = .ok a ∧ y = .ok b ∧ R a b

theorem Both.ok {a : α} {b : β} (h : R a b) : Both (ε := ε) R (.ok a) (.ok b) :=
  .inr ⟨a, b, rfl, rfl, h⟩

theorem Both.of_eq {x y : Except ε α} (h : x = y) : Both Eq x y := by
  cases x with
  | error e => exact .inl ⟨e, rfl, h.symm⟩
  | ok a => exact .inr ⟨a, a, rfl, h.symm, rfl⟩

theorem Both.bind {x : Except ε α} {y : Except ε β} {f : α → Except ε γ} {g : β → Except ε δ}
    (h : Both R x y) (hf : ∀ a b, R a b → Both S (f a) (g b)) : Both S (x >>= f) (y >>= g) := by
  rcases h with ⟨e, rfl, rfl⟩ | ⟨a, b, rfl, rfl, hab⟩
  · exact .inl ⟨e, rfl, rfl⟩
  · exact hf a b hab

/-- What reads the same value twice only has to agree on it. -/
theorem Both.bind_eq {x y : Except ε α} {f : α → Except ε γ} {g : α → Except ε δ}
    (h : x = y) (hf : ∀ a, Both S (f a) (g a)) : Both S (x >>= f) (y >>= g) :=
  (Both.of_eq h).bind fun a _ hab => hab ▸ hf a

end

/-! ### Members with other values -/

/-- The same names in the same order. Values under a name may differ where a relation allows it. -/
def AlikeUnder (R : String → Json → Json → Prop) (ms ns : Members) : Prop :=
  List.Forall₂ (fun m n => m.1 = n.1 ∧ (m.2 = n.2 ∨ R m.1 m.2 n.2)) ms ns

section
variable {R : String → Json → Json → Prop} {ms ns : Members} {α : Type}

theorem AlikeUnder.refl (R : String → Json → Json → Prop) (ms : Members) : AlikeUnder R ms ms :=
  List.forall₂_same.mpr fun _ _ => ⟨rfl, .inl rfl⟩

theorem AlikeUnder.mono {S : String → Json → Json → Prop} (hRS : ∀ name v w, R name v w → S name v w)
    (h : AlikeUnder R ms ns) : AlikeUnder S ms ns :=
  List.Forall₂.imp (fun _ _ h => ⟨h.1, h.2.imp_right (hRS _ _ _)⟩) h

theorem AlikeUnder.lookup (h : AlikeUnder R ms ns) (name : String) :
    ms.lookup name = ns.lookup name ∨
      ∃ v w, R name v w ∧ ms.lookup name = some v ∧ ns.lookup name = some w := by
  induction h with
  | nil => exact .inl rfl
  | cons hm h ih =>
    rename_i m n ms ns
    obtain ⟨k, v⟩ := m
    obtain ⟨k', w⟩ := n
    obtain ⟨hk, hvw⟩ := hm
    obtain rfl : k = k' := hk
    rw [List.lookup_cons, List.lookup_cons]
    cases hname : name == k with
    | false => exact ih
    | true =>
      rw [beq_iff_eq.mp hname]
      exact hvw.imp (congrArg some) fun hR => ⟨v, w, hR, rfl, rfl⟩

theorem AlikeUnder.of_cases (h : AlikeUnder R ms ns) (f : Field Json α) :
    f.of ms = f.of ns ∨ ∃ v w, R f.name v w ∧ f.of ms = f.read v ∧ f.of ns = f.read w := by
  rcases h.lookup f.name with hsame | ⟨v, w, hR, hv, hw⟩
  · exact .inl (by rw [Field.of, Field.of, hsame])
  · exact .inr ⟨v, w, hR, Field.of_present hv, Field.of_present hw⟩

/-- A field whose values may not differ. -/
theorem AlikeUnder.of_eq (h : AlikeUnder R ms ns) (f : Field Json α)
    (same : ∀ v w, ¬ R f.name v w) : f.of ms = f.of ns := by
  rcases h.of_cases f with heq | ⟨v, w, hR, -⟩
  · exact heq
  · exact absurd hR (same v w)

theorem AlikeUnder.checkFields_eq (h : AlikeUnder R ms ns) {fields : List (Field Json Unit)}
    (same : ∀ f ∈ fields, ∀ v w, R f.name v w → f.read v = f.read w) :
    checkFields fields ms = checkFields fields ns := by
  induction h with
  | nil => rfl
  | cons hm h ih =>
    rename_i m n ms ns
    obtain ⟨k, v⟩ := m
    obtain ⟨k', w⟩ := n
    obtain ⟨hk, hvw⟩ := hm
    obtain rfl : k = k' := hk
    rw [checkFields, checkFields]
    cases hfound : fields.find? (·.name == k) with
    | none => exact ih
    | some f =>
      have hname : f.name = k := by simpa using List.find?_some hfound
      have hread : f.read v = f.read w := by
        rcases hvw with heq | hR
        · exact congrArg f.read heq
        · exact same f (List.mem_of_find?_eq_some hfound) v w (by rwa [hname])
      dsimp only
      rw [hread, ih]

end

/-! ### Secrets -/

/-- Two texts. -/
def Texts (v w : Json) : Prop := ∃ s t, v = .str s ∧ w = .str t

def OtherPassword (name : String) (v w : Json) : Prop := name = "password" ∧ Texts v w

/-- Payloads with other passwords. -/
def OtherPayload (name : String) (v w : Json) : Prop :=
  name = "payload" ∧ ∃ p q, v = .obj p ∧ w = .obj q ∧ AlikeUnder OtherPassword p q

/-- Payloads with other passwords, and other tokens. -/
def OtherSecret (name : String) (v w : Json) : Prop :=
  OtherPayload name v w ∨ name = "auth_token" ∧ Texts v w

theorem not_otherPassword {name : String} (h : name ≠ "password") (v w : Json) :
    ¬ OtherPassword name v w := fun hR => h hR.1

theorem not_otherSecret {name : String} (hpayload : name ≠ "payload") (htoken : name ≠ "auth_token")
    (v w : Json) : ¬ OtherSecret name v w := by
  rintro (hR | hR)
  · exact hpayload hR.1
  · exact htoken hR.1

/-! ### Commands -/

namespace Command

/-- The same but for the token and the password. -/
structure Alike (c d : Command) : Prop where
  id : c.id = d.id
  kindName : c.kindName = d.kindName
  payload : AlikeUnder OtherPassword c.payload d.payload
  token : c.token? = d.token? ∨ ∃ s t, c.token? = some s ∧ d.token? = some t

theorem Alike.kind? {c d : Command} (h : c.Alike d) : c.kind? = d.kind? := by
  rw [Command.kind?, Command.kind?, h.kindName]

variable {ms ns : Members}

theorem checkFields_alike (h : AlikeUnder OtherSecret ms ns) :
    checkFields fields ms = checkFields fields ns := by
  have hpayload : ∀ v w, OtherSecret "payload" v w →
      payloadField.test.read v = payloadField.test.read w := by
    rintro v w (⟨-, p, q, rfl, rfl, -⟩ | ⟨hname, -⟩)
    · rfl
    · contradiction
  have htoken : ∀ v w, OtherSecret "auth_token" v w →
      tokenField.test.read v = tokenField.test.read w := by
    rintro v w (⟨hname, -⟩ | ⟨-, s, t, rfl, rfl⟩)
    · contradiction
    · rfl
  have hother : ∀ f : Field Json Unit, f.name ≠ "payload" → f.name ≠ "auth_token" →
      ∀ v w, OtherSecret f.name v w → f.read v = f.read w :=
    fun f hp ht v w hR => absurd hR (not_otherSecret hp ht v w)
  apply h.checkFields_eq
  simp only [fields, List.forall_mem_cons, List.not_mem_nil]
  exact ⟨hother _ (by decide) (by decide), hother _ (by decide) (by decide), hpayload,
    hother _ (by decide) (by decide), htoken, fun _ h => absurd h not_false⟩

theorem payload_alike (h : AlikeUnder OtherSecret ms ns) :
    Both (AlikeUnder OtherPassword) (payloadField.of ms) (payloadField.of ns) := by
  rcases h.of_cases payloadField with heq | ⟨v, w, hR, hv, hw⟩
  · rcases Both.of_eq heq with herror | ⟨p, q, hp, hq, rfl⟩
    · exact .inl herror
    · exact .inr ⟨p, p, hp, hq, .refl _ p⟩
  · rcases hR with ⟨-, p, q, rfl, rfl, halike⟩ | ⟨hname, -⟩
    · exact .inr ⟨p, q, hv, hw, halike⟩
    · contradiction

theorem token_alike (h : AlikeUnder OtherSecret ms ns) :
    Both (fun t? u? => t? = u? ∨ ∃ t u, t? = some t ∧ u? = some u)
      (tokenField.of ms) (tokenField.of ns) := by
  rcases h.of_cases tokenField with heq | ⟨v, w, hR, hv, hw⟩
  · rcases Both.of_eq heq with herror | ⟨t?, u?, ht, hu, heq⟩
    · exact .inl herror
    · exact .inr ⟨t?, u?, ht, hu, .inl heq⟩
  · rcases hR with ⟨hname, -⟩ | ⟨-, t, u, rfl, rfl⟩
    · contradiction
    · exact .inr ⟨some t, some u, hv, hw, .inr ⟨t, u, rfl, rfl⟩⟩

theorem ofMembers_alike (h : AlikeUnder OtherSecret ms ns) :
    Both Alike (ofMembers ms) (ofMembers ns) := by
  have hplain : ∀ f : Field Json String, f.name ≠ "payload" → f.name ≠ "auth_token" →
      f.of ms = f.of ns := fun f hp ht => h.of_eq f (not_otherSecret hp ht)
  unfold ofMembers
  refine .bind_eq (checkFields_alike h) fun _ => ?_
  refine .bind_eq (hplain idField (by decide) (by decide)) fun id => ?_
  refine .bind_eq (hplain kindField (by decide) (by decide)) fun kindName => ?_
  refine (payload_alike h).bind fun p q hpayload => ?_
  refine .bind_eq (hplain timestampField (by decide) (by decide)) fun timestamp => ?_
  exact (token_alike h).bind fun t? u? htoken => .ok ⟨rfl, rfl, hpayload, htoken⟩

/-- Frames that differ in secrets hold the same command but for these, or none for the same
reason. -/
theorem ofObject_alike (h : AlikeUnder OtherSecret ms ns) :
    Both Alike (ofObject ms) (ofObject ns) := by
  rw [ofObject, ofObject]
  rcases ofMembers_alike h with ⟨m, hm, hn⟩ | ⟨c, d, hm, hn, halike⟩
  · rw [hm, hn]
    exact .inl ⟨_, rfl, rfl⟩
  · rw [hm, hn]
    exact .ok halike

theorem peekId_alike (h : AlikeUnder OtherSecret ms ns) : peekId ms = peekId ns := by
  rcases h.lookup "id" with heq | ⟨v, w, hR, -⟩
  · rw [peekId, peekId, Members.get?, Members.get?, heq]
  · exact absurd hR (not_otherSecret (by decide) (by decide) v w)

/-- Without other tokens, the tokens are the same. -/
theorem token_of_payload {c d : Command} (h : AlikeUnder OtherPayload ms ns)
    (hc : ofObject ms = .ok c) (hd : ofObject ns = .ok d) : c.token? = d.token? := by
  have hsame := h.of_eq tokenField fun v w hR => absurd hR.1 (by decide)
  obtain ⟨-, -, -, -, ht⟩ := ofMembers_eq_ok (ofObject_eq_ok hc)
  obtain ⟨-, -, -, -, hu⟩ := ofMembers_eq_ok (ofObject_eq_ok hd)
  rw [ht, hu] at hsame
  exact Except.ok.inj hsame

end Command

/-! ### Requests -/

namespace Request

/-- The same but for the password. -/
inductive Alike : Request → Request → Prop where
  | authenticate {c d : Credentials} (username : c.username = d.username) :
      Alike (.authenticate c) (.authenticate d)
  | desktop (call : Call) : Alike (.desktop call) (.desktop call)

theorem Alike.refl (r : Request) : r.Alike r := by
  cases r with
  | authenticate c => exact .authenticate rfl
  | desktop call => exact .desktop call

variable {ps qs : Members}

theorem checkFields_eq_of_plain (h : AlikeUnder OtherPassword ps qs) {fields : List (Field Json Unit)}
    (plain : ∀ f ∈ fields, f.name ≠ "password") : checkFields fields ps = checkFields fields qs :=
  h.checkFields_eq fun f hf _ _ hR => absurd hR.1 (plain f hf)

theorem of_eq_of_plain {α : Type} (h : AlikeUnder OtherPassword ps qs) (f : Field Json α)
    (plain : f.name ≠ "password") : f.of ps = f.of qs := h.of_eq f (not_otherPassword plain)

theorem readPoint_eq (h : AlikeUnder OtherPassword ps qs) : readPoint ps = readPoint qs := by
  rw [readPoint, readPoint, checkFields_eq_of_plain h (by decide),
    of_eq_of_plain h xField (by decide), of_eq_of_plain h yField (by decide)]

theorem readClick_eq (h : AlikeUnder OtherPassword ps qs) : readClick ps = readClick qs := by
  rw [readClick, readClick, checkFields_eq_of_plain h (by decide),
    of_eq_of_plain h buttonField (by decide), of_eq_of_plain h xField (by decide),
    of_eq_of_plain h yField (by decide)]

theorem readCredentials_alike (h : AlikeUnder OtherPassword ps qs) :
    Both (fun c d => c.username = d.username) (readCredentials ps) (readCredentials qs) := by
  have hchecks : ∀ f ∈ [usernameField.test, passwordField.test], ∀ v w,
      OtherPassword f.name v w → f.read v = f.read w := by
    simp only [List.forall_mem_cons, List.not_mem_nil]
    refine ⟨fun v w hR => absurd hR.1 (by decide), ?_, fun _ h => absurd h not_false⟩
    rintro v w ⟨-, s, t, rfl, rfl⟩
    rfl
  have hpassword : Both (fun _ _ => True) (passwordField.of ps) (passwordField.of qs) := by
    rcases h.of_cases passwordField with heq | ⟨v, w, ⟨-, s, t, rfl, rfl⟩, hv, hw⟩
    · rcases Both.of_eq heq with herror | ⟨s, t, hs, ht, -⟩
      · exact .inl herror
      · exact .inr ⟨s, t, hs, ht, trivial⟩
    · exact .inr ⟨s, t, hv, hw, trivial⟩
  unfold readCredentials
  refine .bind_eq (h.checkFields_eq hchecks) fun _ => ?_
  refine .bind_eq (of_eq_of_plain h usernameField (by decide)) fun username => ?_
  exact hpassword.bind fun _ _ _ => .ok rfl

theorem ofPayload_alike (kind : CommandKind) (h : AlikeUnder OtherPassword ps qs) :
    Both Alike (ofPayload kind ps) (ofPayload kind qs) := by
  have hplain : ofPayload kind ps = ofPayload kind qs →
      Both Alike (ofPayload kind ps) (ofPayload kind qs) := by
    intro heq
    rcases Both.of_eq heq with herror | ⟨r, s, hr, hs, rfl⟩
    · exact .inl herror
    · exact .inr ⟨r, r, hr, hs, .refl r⟩
  cases kind with
  | authenticate =>
    rcases readCredentials_alike h with ⟨m, hm, hn⟩ | ⟨c, d, hm, hn, husername⟩
    · rw [ofPayload, ofPayload, hm, hn]
      exact .inl ⟨_, rfl, rfl⟩
    · rw [ofPayload, ofPayload, hm, hn]
      exact .ok (.authenticate husername)
  | mouseMove | mouseScroll | getWindowInfo =>
    exact hplain (by rw [ofPayload, ofPayload, readPoint_eq h])
  | mouseClick => exact hplain (by rw [ofPayload, ofPayload, readClick_eq h])
  | keyPress | keyRelease =>
    exact hplain (by
      rw [ofPayload, ofPayload, readKey, readKey, of_eq_of_plain h keyField (by decide)])
  | typeText =>
    exact hplain (by
      rw [ofPayload, ofPayload, readTyped, readTyped, of_eq_of_plain h textField (by decide)])
  | captureScreen =>
    exact hplain (by rw [ofPayload, ofPayload, of_eq_of_plain h displayField (by decide)])
  | getDisplays | listWindows => exact hplain rfl

/-- Payloads that differ in the password ask for the same but for it, or fail for the same reason. -/
theorem parse_alike (kind : CommandKind) (h : AlikeUnder OtherPassword ps qs) :
    Both Alike (parse kind ps) (parse kind qs) := by
  rw [parse, parse]
  rcases ofPayload_alike kind h with ⟨m, hm, hn⟩ | ⟨r, s, hm, hn, halike⟩
  · rw [hm, hn]
    exact .inl ⟨_, rfl, rfl⟩
  · rw [hm, hn]
    exact .ok halike

end Request

end RemoteDesk
