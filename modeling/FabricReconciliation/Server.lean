import FabricReconciliation.Session

/-!
# The accept loop (`server.cpp:502-509`, `server.cpp:653-770`)

The accept thread admits connections into the server's session list; each session runs on a thread of its
own and ends in `CloseSession`. The threads meet only in that list, so a server takes one event at a
time: what the accept thread finds on its listener, a session that closes, a request to stop and the end
of `Stop`. Only the accept thread adds to the list and only the end of `Stop` takes from it.

* **`capacity_refusals`** — when a connection is refused only because that many sessions are open;
* **`ended_sessions_refuse`** — a server whose sessions have all ended refuses the next connection.
-/

namespace FabricReconciliation

/-- `ServerOptions` (`server.hpp:34`), without the address. -/
structure ServerOptions where
  limits : RuntimeLimits := {}
  maxSessions : UInt64 := 64
  singleSession : Bool := false

/-- A session as the list holds it: its connection is closed by `CloseSession`. -/
structure SessionSlot where
  closed : Bool := false
deriving DecidableEq

/-- `ReconciliationServer::Impl`; `accepting` says that the accept thread runs. -/
structure Server where
  options : ServerOptions
  sessions : List SessionSlot := []
  stopping : Bool := false
  accepting : Bool := true
  accepted : UInt64 := 0
  rejected : UInt64 := 0

inductive ServerEvent
  /-- The accept thread waited and found nothing. -/
  | idle
  /-- The accept thread's wait failed. -/
  | waitFailed
  | acceptFailed
  /-- A connection was accepted; a wakeup channel can be made for it or not. -/
  | connection (wakes : Bool)
  /-- The session at this place of the list runs `CloseSession`. -/
  | closed (place : Nat)
  /-- `Stop` sets its flag. -/
  | stop
  /-- `Stop` has joined every thread. -/
  | joined
deriving DecidableEq

namespace Server

/-- `active >= impl.options.max_sessions`. -/
def full (s : Server) : Bool := s.options.maxSessions.toNat ≤ s.sessions.length

/-- A turn of the accept loop that has a connection (`server.cpp:691`). -/
def acceptConnection (s : Server) (wakes : Bool) : Server :=
  if s.full then { s with rejected := s.rejected + 1, accepting := !s.stopping }
  else if !wakes then { s with rejected := s.rejected + 1, accepting := !s.stopping }
  else { s with
    sessions := s.sessions ++ [{}]
    accepted := s.accepted + 1
    accepting := !s.options.singleSession && !s.stopping }

def step (s : Server) : ServerEvent → Server
  | .idle => if s.accepting then { s with accepting := !s.stopping } else s
  | .waitFailed => { s with accepting := false }
  | .acceptFailed => if s.accepting then { s with accepting := !s.stopping } else s
  | .connection wakes => if s.accepting then s.acceptConnection wakes else s
  | .closed place => { s with sessions := s.sessions.modify place fun slot => { slot with closed := true } }
  | .stop => { s with stopping := true }
  | .joined => if s.stopping && !s.accepting then { s with sessions := [] } else s

/-- The server after these events. -/
def run (options : ServerOptions) (events : List ServerEvent) : Server := events.foldl step { options := options }

/-- The event brings a connection to the capacity check. -/
def meets (s : Server) : ServerEvent → Bool
  | .connection _ => s.accepting
  | _ => false

/-- The event is answered by a refusal for capacity. -/
def refuses (s : Server) (e : ServerEvent) : Bool := s.meets e && s.full

/-- The sessions that `CloseSession` has not closed. -/
def openSessions (s : Server) : Nat := (s.sessions.filter fun slot => !slot.closed).length

end Server

section Run

variable {s : Server}

theorem Server.step_options (e : ServerEvent) : (s.step e).options = s.options := by
  cases e with
  | connection wakes =>
    simp only [step, acceptConnection]
    split_ifs <;> rfl
  | idle => simp only [step]; split_ifs <;> rfl
  | acceptFailed => simp only [step]; split_ifs <;> rfl
  | joined => simp only [step]; split_ifs <;> rfl
  | waitFailed => rfl
  | closed place => rfl
  | stop => rfl

/-- The list never outgrows the bound. -/
theorem Server.step_length (h : s.sessions.length ≤ s.options.maxSessions.toNat) (e : ServerEvent) :
    (s.step e).sessions.length ≤ s.options.maxSessions.toNat := by
  cases e with
  | connection wakes =>
    simp only [step, acceptConnection, full, decide_eq_true_eq]
    split_ifs with haccepting hfull hwakes
    · exact h
    · exact h
    · rw [List.length_append, List.length_singleton]
      omega
    · exact h
  | idle => simp only [step]; split_ifs <;> exact h
  | acceptFailed => simp only [step]; split_ifs <;> exact h
  | joined =>
    simp only [step]
    split_ifs
    · exact Nat.zero_le _
    · exact h
  | waitFailed => exact h
  | closed place => simpa [step] using h
  | stop => exact h

theorem Server.run_bounded (options : ServerOptions) (events : List ServerEvent) :
    (Server.run options events).options = options ∧
      (Server.run options events).sessions.length ≤ options.maxSessions.toNat := by
  have hall : ∀ (events : List ServerEvent) (s : Server), s.options = options →
      s.sessions.length ≤ options.maxSessions.toNat →
      (events.foldl step s).options = options ∧
        (events.foldl step s).sessions.length ≤ options.maxSessions.toNat := by
    intro events
    induction events with
    | nil => exact fun s hoptions hlength => ⟨hoptions, hlength⟩
    | cons e events ih =>
      intro s hoptions hlength
      refine ih (s.step e) ((Server.step_options e).trans hoptions) ?_
      rw [← hoptions] at hlength ⊢
      exact Server.step_length hlength e
  exact hall events _ rfl (Nat.zero_le _)

/-- All sessions are open exactly when as many are open as there are. -/
theorem Server.length_le_open : s.sessions.length ≤ s.openSessions ↔ ∀ slot ∈ s.sessions, slot.closed = false := by
  unfold openSessions
  constructor
  · intro hlength slot hslot
    have hall : (s.sessions.filter fun slot => !slot.closed) = s.sessions :=
      List.filter_sublist.eq_of_length_le hlength
    rw [← hall] at hslot
    simpa using (List.mem_filter.mp hslot).2
  · intro hopen
    rw [List.filter_eq_self.mpr]
    intro slot hslot
    rw [hopen slot hslot]
    rfl

end Run

/-- **`capacity_refusals`**: in a run, every refusal for capacity finds `max_sessions` open sessions if and
only if every connection that comes to the check finds room in the list or no session in it that has ended. -/
theorem capacity_refusals (options : ServerOptions) (events : List ServerEvent) :
    (∀ before e after, events = before ++ e :: after → (Server.run options before).refuses e = true →
      options.maxSessions.toNat ≤ (Server.run options before).openSessions) ↔
    ∀ before e after, events = before ++ e :: after → (Server.run options before).meets e = true →
      (Server.run options before).sessions.length < options.maxSessions.toNat ∨
        ∀ slot ∈ (Server.run options before).sessions, slot.closed = false := by
  have hpoint : ∀ before e, ((Server.run options before).refuses e = true →
        options.maxSessions.toNat ≤ (Server.run options before).openSessions) ↔
      ((Server.run options before).meets e = true →
        (Server.run options before).sessions.length < options.maxSessions.toNat ∨
          ∀ slot ∈ (Server.run options before).sessions, slot.closed = false) := by
    intro before e
    obtain ⟨hoptions, hlength⟩ := Server.run_bounded options before
    rw [← Server.length_le_open, Server.refuses, Bool.and_eq_true, Server.full, hoptions, decide_eq_true_eq]
    constructor
    · intro h hmeets
      by_cases hroom : (Server.run options before).sessions.length < options.maxSessions.toNat
      · exact .inl hroom
      · exact .inr (le_trans hlength (h ⟨hmeets, not_lt.mp hroom⟩))
    · rintro h ⟨hmeets, hfull⟩
      rcases h hmeets with hroom | hopen
      · omega
      · exact le_trans hfull hopen
  constructor
  · intro h before e after hevents
    exact (hpoint before e).mp (h before e after hevents)
  · intro h before e after hevents
    exact (hpoint before e).mpr (h before e after hevents)

/-- Connections that come one after the other, each closed before the next. -/
def visits (n : Nat) : List ServerEvent := (List.range n).flatMap fun place => [.connection true, .closed place]

/-- **`ended_sessions_refuse`**: with the default options, the connection behind 64 ended sessions. -/
theorem ended_sessions_refuse :
    (Server.run {} (visits 64)).openSessions = 0 ∧ (Server.run {} (visits 64)).refuses (.connection true) = true ∧
      ¬ ∀ before e after, visits 64 ++ [.connection true] = before ++ e :: after →
        (Server.run {} before).refuses e = true →
        ({} : ServerOptions).maxSessions.toNat ≤ (Server.run {} before).openSessions := by
  have hopen : (Server.run {} (visits 64)).openSessions = 0 := by decide +kernel
  have hrefuses : (Server.run {} (visits 64)).refuses (.connection true) = true := by decide +kernel
  refine ⟨hopen, hrefuses, ?_⟩
  intro h
  have hmany := h (visits 64) (.connection true) [] rfl hrefuses
  rw [hopen] at hmany
  exact absurd hmany (by decide)

end FabricReconciliation
