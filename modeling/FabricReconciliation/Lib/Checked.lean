import FabricReconciliation.Lib.Collections

/-!
# Readers that say why they fail

A `Checked ε` reader is a reader whose failures carry an error. Forgetting the error
(`erase`) commutes with sequencing and with loops, so the round-trip calculus of plain
readers decides when a checked reader succeeds.
-/

namespace Lib

variable {ε α β σ κ : Type}

abbrev Checked (ε α : Type) := Bytes → Except ε (α × Bytes)

namespace Checked

def pure (a : α) : Checked ε α := fun bs => .ok (a, bs)

def bind (c : Checked ε α) (f : α → Checked ε β) : Checked ε β := fun bs =>
  match c bs with
  | .error e => .error e
  | .ok (a, rest) => f a rest

instance : Monad (Checked ε) where
  pure := pure
  bind := bind

/-- A plain reader whose failure is reported as `e`. -/
def expect (e : ε) (r : Reader α) : Checked ε α := fun bs =>
  match r bs with
  | none => .error e
  | some p => .ok p

def loop (n : Nat) (body : σ → Checked ε σ) (s : σ) : Checked ε σ :=
  match n with
  | 0 => pure s
  | n + 1 => bind (body s) fun s' => loop n body s'

/-- `n` items, in order. -/
def list (n : Nat) (item : Checked ε α) : Checked ε (List α) :=
  loop n (fun acc => bind item fun a => pure (acc ++ [a])) []

/-- `n` entries, each assigned to its key. -/
def table [LinearOrder κ] (n : Nat) (entry : Checked ε (κ × α)) : Checked ε (OrdMap κ α) :=
  loop n (fun acc => bind entry fun e => pure (acc.insert e.1 e.2)) OrdMap.empty

/-- Runs on the whole input; bytes left over are the error `e`. -/
def exactly (e : ε) (c : Checked ε α) (bs : Bytes) : Except ε α :=
  match c bs with
  | .error x => .error x
  | .ok (a, []) => .ok a
  | .ok (_, _ :: _) => .error e

/-- The plain reader behind a checked one. -/
def erase (c : Checked ε α) : Reader α := fun bs => (c bs).toOption

@[simp] theorem pure_eq (a : α) : (Pure.pure a : Checked ε α) = pure a := rfl
@[simp] theorem bind_eq (c : Checked ε α) (f : α → Checked ε β) : (c >>= f) = bind c f := rfl

@[simp] theorem erase_pure (a : α) : (pure a : Checked ε α).erase = Reader.pure a := rfl

@[simp] theorem erase_bind (c : Checked ε α) (f : α → Checked ε β) :
    (bind c f).erase = Reader.bind c.erase fun a => (f a).erase := by
  funext bs
  simp only [erase, bind, Reader.bind]
  cases c bs with
  | error e => rfl
  | ok p => rfl

@[simp] theorem erase_expect (e : ε) (r : Reader α) : (expect e r).erase = r := by
  funext bs
  simp only [erase, expect]
  cases r bs <;> rfl

@[simp] theorem erase_loop (body : σ → Checked ε σ) : ∀ (n : Nat) (s : σ),
    (loop n body s).erase = Reader.loop n (fun s => (body s).erase) s
  | 0, s => rfl
  | n + 1, s => by
    unfold loop Reader.loop
    rw [erase_bind]
    congr 1
    funext s'
    exact erase_loop body n s'

theorem exactly_of_erase {e : ε} {c : Checked ε α} {bs : Bytes} {o : Option α}
    (h : Reads c.erase bs o) : (exactly e c bs).toOption = o := by
  have h0 := h []
  rw [List.append_nil] at h0
  unfold exactly
  unfold erase at h0
  cases hc : c bs with
  | error x => rw [hc] at h0; cases o <;> simp_all [Except.toOption]
  | ok p =>
    obtain ⟨a, rest⟩ := p
    rw [hc] at h0
    cases o with
    | none => simp [Except.toOption] at h0
    | some b =>
      simp only [Except.toOption, Option.map_some, Option.some.injEq, Prod.mk.injEq] at h0
      obtain ⟨rfl, rfl⟩ := h0
      rfl

/-! ### What a reader fails with -/

/-- Every failure of the reader carries an error of this kind. -/
def Refuses (kind : ε → Prop) (c : Checked ε α) : Prop := ∀ bs e, c bs = .error e → kind e

variable {kind : ε → Prop}

theorem refuses_pure (a : α) : Refuses kind (pure a : Checked ε α) := by
  intro bs e h
  simp [pure] at h

theorem refuses_expect {e : ε} (he : kind e) (r : Reader α) : Refuses kind (expect e r) := by
  intro bs x h
  unfold expect at h
  cases hr : r bs with
  | none =>
    rw [hr] at h
    exact Except.error.inj h ▸ he
  | some p => simp [hr] at h

theorem Refuses.bind {c : Checked ε α} {f : α → Checked ε β} (hc : Refuses kind c) (hf : ∀ a, Refuses kind (f a)) :
    Refuses kind (bind c f) := by
  intro bs x h
  unfold Checked.bind at h
  cases hr : c bs with
  | error e =>
    rw [hr] at h
    exact Except.error.inj h ▸ hc bs e hr
  | ok p =>
    rw [hr] at h
    exact hf p.1 p.2 x h

theorem Refuses.loop {body : σ → Checked ε σ} (hbody : ∀ s, Refuses kind (body s)) : ∀ (n : Nat) (s : σ),
    Refuses kind (loop n body s)
  | 0, s => refuses_pure s
  | n + 1, s => (hbody s).bind fun s' => Refuses.loop hbody n s'

theorem Refuses.list {item : Checked ε α} (hitem : Refuses kind item) (n : Nat) : Refuses kind (list n item) :=
  Refuses.loop (fun _ => hitem.bind fun _ => refuses_pure _) n []

theorem Refuses.table [LinearOrder κ] {entry : Checked ε (κ × α)} (hentry : Refuses kind entry) (n : Nat) :
    Refuses kind (table n entry) :=
  Refuses.loop (fun _ => hentry.bind fun _ => refuses_pure _) n OrdMap.empty

theorem Refuses.exactly {e : ε} {c : Checked ε α} (hc : Refuses kind c) (he : kind e) {bs : Bytes} {x : ε}
    (h : exactly e c bs = .error x) : kind x := by
  unfold Checked.exactly at h
  split at h
  next y hr => exact Except.error.inj h ▸ hc bs y hr
  · simp at h
  · exact Except.error.inj h ▸ he

end Checked

/-! ## Round trips -/

theorem reads_checkedBind {c : Checked ε α} {f : α → Checked ε β} {bs cs : Bytes} {a : α} {o : Option β}
    (h₁ : Reads c.erase bs (some a)) (h₂ : Reads (f a).erase cs o) :
    Reads (Checked.bind c f).erase (bs ++ cs) o := by
  rw [Checked.erase_bind]
  exact Reads.bind h₁ h₂

theorem reads_checkedBind_none {c : Checked ε α} {f : α → Checked ε β} {bs cs : Bytes}
    (h : Reads c.erase bs none) : Reads (Checked.bind c f).erase (bs ++ cs) none := by
  rw [Checked.erase_bind]
  exact Reads.bind_none h

theorem reads_checkedBind_end {c : Checked ε α} {f : α → Checked ε β} {bs : Bytes} {a : α} {o : Option β}
    (h₁ : Reads c.erase bs (some a)) (h₂ : Reads (f a).erase [] o) :
    Reads (Checked.bind c f).erase bs o := by
  rw [Checked.erase_bind]
  exact Reads.bind_end h₁ h₂

theorem reads_expect {e : ε} {r : Reader α} {bs : Bytes} {o : Option α} (h : Reads r bs o) :
    Reads (Checked.expect e r).erase bs o := by
  rw [Checked.erase_expect]
  exact h

theorem reads_checkedPure (a : α) : Reads (Checked.pure a : Checked ε α).erase [] (some a) := Reads.pure a

theorem reads_checkedList {item : Checked ε α} {enc : α → Bytes} {l : List α}
    (h : ∀ a ∈ l, Reads item.erase (enc a) (some a)) :
    Reads (Checked.list l.length item).erase (l.flatMap enc) (some l) := by
  have := reads_list h
  simpa [Checked.list, Reader.list] using this

theorem reads_checkedTable [LinearOrder κ] {entry : Checked ε (κ × α)} {enc : κ × α → Bytes}
    {m : OrdMap κ α} (h : ∀ e ∈ m.entries, Reads entry.erase (enc e) (some e)) :
    Reads (Checked.table m.size entry).erase (m.entries.flatMap enc) (some m) := by
  have hloop : Reads (Checked.table m.size entry).erase (m.entries.flatMap enc)
      (some (OrdMap.empty.insertAll m.entries)) := by
    simp only [Checked.table, Checked.erase_loop, Checked.erase_bind, Checked.erase_pure]
    refine Reads.loop m.entries OrdMap.empty fun pre e post hl => ?_
    exact Reads.bind_end (h e (by simp [hl])) (Reads.pure _)
  rwa [OrdMap.foldl_insert_entries] at hloop

end Lib
