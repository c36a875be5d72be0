import ComputeIntelligence.GuardedRuns
import Mathlib.Data.List.Nodup

/-! # Optimistic transactions

Clients share one cell.  A transaction watches the cell, reads it, computes a new content
from what it read, queues the write, and executes: the write takes place if nobody has
written since the watch, and otherwise the transaction starts again.  The computation may
raise, which ends the call, and it may assign variables that outlive an attempt
(`captured`), from which the answer is read at the end.

If neither the answer nor the written content depends on what an earlier attempt left in
the captured variables (`Fresh`), every interleaving is a serial run: the content is that
of the initial cell after the committed transactions, one after the other in the order of
their commits, and each answer is the one its computation gives on the content it finds
there (`linearizable`).
-/
namespace Optimistic

/-- What clients run: operations `ω` over a cell `γ`, with inputs `ρ` read anew by each
attempt, captured variables `κ` and answers `α`. -/
structure Protocol (ω ρ γ κ ε α : Type) where
  /-- The captured variables before the first attempt. -/
  initial : ω → κ
  /-- One computation: the captured variables after it, and the content to write. -/
  body : ω → ρ → γ → κ → Except ε (κ × γ)
  answer : ω → κ → α

variable {ω ρ γ κ ε α : Type}

namespace Protocol
variable (P : Protocol ω ρ γ κ ε α)

/-- The answer and the content of one computation. -/
def outcome (o : ω) (r : ρ) (c : γ) (k : κ) : Except ε (α × γ) :=
  (P.body o r c k).map fun x => (P.answer o x.1, x.2)

/-- The operation, run once on its own. -/
def once (o : ω) (r : ρ) (c : γ) : Except ε (α × γ) := P.outcome o r c (P.initial o)

/-- What earlier attempts captured has no part in the outcome. -/
def Fresh : Prop := ∀ o r c k, P.outcome o r c k = P.once o r c

end Protocol

/-- How far an attempt has got.  `since` is the number of writes before the watch. -/
inductive Phase (ρ γ ε α : Type) where
  | ready
  | watching (since : Nat)
  | read (since : Nat) (found : γ)
  | computed (since : Nat) (input : ρ) (content : γ)
  | queued (since : Nat) (input : ρ) (content : γ)
  | returned (answer : α)
  | raised (error : ε)

/-- A call in progress. -/
structure Client (ω ρ γ κ ε α : Type) where
  op : ω
  captured : κ
  phase : Phase ρ γ ε α

/-- A write that took place: whose it was, and what it answered. -/
structure Commit (ω ρ α : Type) where
  client : Nat
  op : ω
  input : ρ
  answer : α

/-- The cell, the number of writes to it, the calls, and the commits in their order. -/
structure System (ω ρ γ κ ε α : Type) where
  content : γ
  writes : Nat := 0
  clients : List (Client ω ρ γ κ ε α) := []
  commits : List (Commit ω ρ α) := []

/-- A move of a client in its transaction. -/
inductive Move (ρ : Type) where
  | watch
  | get
  | compute (input : ρ)
  | queue
  | exec

/-- A step of the system. -/
inductive Step (ω ρ : Type) where
  | call (op : ω)
  | move (i : Nat) (m : Move ρ)

variable (P : Protocol ω ρ γ κ ε α)

/-- The client after a move, when the cell holds `cell` after `writes` writes.  A move
its phase does not allow does nothing. -/
def Client.next (cell : γ) (writes : Nat) (c : Client ω ρ γ κ ε α) :
    Move ρ → Client ω ρ γ κ ε α
  | .watch => match c.phase with
      | .ready => { c with phase := .watching writes }
      | _ => c
  | .get => match c.phase with
      | .watching since => { c with phase := .read since cell }
      | _ => c
  | .compute input => match c.phase with
      | .read since found => match P.body c.op input found c.captured with
          | .ok (captured, content) =>
              { c with captured, phase := .computed since input content }
          | .error e => { c with phase := .raised e }
      | _ => c
  | .queue => match c.phase with
      | .computed since input content => { c with phase := .queued since input content }
      | _ => c
  | .exec => match c.phase with
      | .queued since _ _ =>
          if since = writes then { c with phase := .returned (P.answer c.op c.captured) }
          else { c with phase := .ready }
      | _ => c

/-- The write that a move makes. -/
def Client.write? (writes : Nat) (c : Client ω ρ γ κ ε α) : Move ρ → Option (ρ × γ)
  | .exec => match c.phase with
      | .queued since input content => if since = writes then some (input, content) else none
      | _ => none
  | _ => none

namespace System

/-- One step of the system. -/
def step (s : System ω ρ γ κ ε α) : Step ω ρ → System ω ρ γ κ ε α
  | .call op => { s with clients := s.clients ++ [⟨op, P.initial op, .ready⟩] }
  | .move i m => match s.clients[i]? with
      | none => s
      | some c =>
          let clients := s.clients.set i (c.next P s.content s.writes m)
          match c.write? s.writes m with
          | none => { s with clients }
          | some (input, content) =>
              { content
                writes := s.writes + 1
                clients
                commits := s.commits ++ [⟨i, c.op, input, P.answer c.op c.captured⟩] }

end System

/-- A serial run from a cell: each commit answers and writes what its operation gives on
the content before it. -/
inductive Serial (initial : γ) : List (Commit ω ρ α) → γ → Prop where
  | nil : Serial initial [] initial
  | commit {cs : List (Commit ω ρ α)} {c c' : γ} {i : Nat} {o : ω} {r : ρ} {a : α}
      (before : Serial initial cs c) (once : P.once o r c = .ok (a, c')) :
      Serial initial (cs ++ [⟨i, o, r, a⟩]) c'

/-! ### The invariant -/

/-- What the phase of a client says about the cell: as long as nobody writes, what was
read is what is there, and what was computed is what the operation gives. -/
def Client.Sound (cell : γ) (writes : Nat) (c : Client ω ρ γ κ ε α) : Prop :=
  match c.phase with
  | .watching since => since ≤ writes
  | .read since found => since ≤ writes ∧ (since = writes → found = cell)
  | .computed since input content | .queued since input content =>
      since ≤ writes ∧
        (since = writes → P.once c.op input cell = .ok (P.answer c.op c.captured, content))
  | _ => True

/-- The invariant of the system. -/
structure System.Consistent (initial : γ) (s : System ω ρ γ κ ε α) : Prop where
  serial : Serial P initial s.commits s.content
  sound : ∀ (i : Nat) (c : Client ω ρ γ κ ε α), s.clients[i]? = some c →
    c.Sound P s.content s.writes
  nodup : (s.commits.map Commit.client).Nodup
  returned : ∀ i c a, s.clients[i]? = some c → c.phase = .returned a →
    ∃ input, ⟨i, c.op, input, a⟩ ∈ s.commits
  committed : ∀ m ∈ s.commits, ∃ c, s.clients[m.client]? = some c ∧ c.op = m.op ∧
    c.phase = .returned m.answer

variable {P} {cell cell' : γ} {writes : Nat} {c : Client ω ρ γ κ ε α} {m : Move ρ}

theorem Client.next_op : (c.next P cell writes m).op = c.op := by
  unfold Client.next
  cases m <;> dsimp only <;> split <;> try rfl
  · split <;> rfl
  · split <;> rfl

/-- A write ends a transaction that was queued since the last write. -/
theorem Client.write?_eq_some {input : ρ} {content : γ}
    (h : c.write? writes m = some (input, content)) :
    c.phase = .queued writes input content ∧
      c.next P cell writes m = { c with phase := .returned (P.answer c.op c.captured) } := by
  cases m with
  | exec =>
    unfold Client.write? at h
    unfold Client.next
    dsimp only at h ⊢
    cases hp : c.phase with
    | queued since input' content' =>
      simp only [hp] at h ⊢
      split at h
      · rename_i heq
        cases h
        rw [if_pos heq, heq]
        exact ⟨rfl, rfl⟩
      · cases h
    | _ => simp only [hp, reduceCtorEq] at h
  | _ => cases h

/-- Without a write nobody returns. -/
theorem Client.returned_of_next {a : α} (hw : c.write? writes m = none)
    (h : (c.next P cell writes m).phase = .returned a) : c.phase = .returned a := by
  unfold Client.next at h
  cases m with
  | exec =>
    unfold Client.write? at hw
    dsimp only at h hw
    cases hp : c.phase with
    | queued since input content =>
      simp only [hp] at h hw
      by_cases heq : since = writes
      · rw [if_pos heq] at hw
        cases hw
      · rw [if_neg heq] at h
        cases h
    | _ => simp_all
  | compute input =>
    dsimp only at h
    cases hp : c.phase with
    | read since found =>
      simp only [hp] at h
      split at h <;> cases h
    | _ => simp_all
  | _ =>
    dsimp only at h
    cases hp : c.phase with
    | _ => simp_all

/-- A client that has returned does not move. -/
theorem Client.next_of_returned {a : α} (h : c.phase = .returned a) :
    c.next P cell writes m = c := by
  unfold Client.next
  cases m <;> simp only [h]

/-- After a write of another client nothing that was read is current. -/
theorem Client.Sound.stale (h : c.Sound P cell writes) : c.Sound P cell' (writes + 1) := by
  unfold Client.Sound at *
  cases hp : c.phase with
  | watching since =>
    simp only [hp] at h ⊢
    omega
  | read since found =>
    simp only [hp] at h ⊢
    exact ⟨by omega, fun heq => absurd heq (by omega)⟩
  | computed since input content =>
    simp only [hp] at h ⊢
    exact ⟨by omega, fun heq => absurd heq (by omega)⟩
  | queued since input content =>
    simp only [hp] at h ⊢
    exact ⟨by omega, fun heq => absurd heq (by omega)⟩
  | _ => trivial

/-- A computation on the current content gives what the operation gives. -/
theorem once_of_body {o : ω} {r : ρ} {k k' : κ} {content : γ} (hfresh : P.Fresh)
    (h : P.body o r cell k = .ok (k', content)) :
    P.once o r cell = .ok (P.answer o k', content) := by
  rw [← hfresh o r cell k, Protocol.outcome, h]
  rfl

/-- A move keeps a client sound while the cell stays as it is. -/
theorem Client.Sound.next (hfresh : P.Fresh) (h : c.Sound P cell writes) (m : Move ρ) :
    (c.next P cell writes m).Sound P cell writes := by
  cases hp : c.phase with
  | ready =>
    cases m <;> simp_all [Client.next, Client.Sound]
  | watching since =>
    cases m <;> simp_all [Client.next, Client.Sound]
  | read since found =>
    have hread : since ≤ writes ∧ (since = writes → found = cell) := by
      simpa only [Client.Sound, hp] using h
    cases m with
    | compute input =>
      unfold Client.next
      simp only [hp]
      cases hbody : P.body c.op input found c.captured with
      | error e => trivial
      | ok x =>
        obtain ⟨captured, content⟩ := x
        refine ⟨hread.1, fun heq => ?_⟩
        rw [hread.2 heq] at hbody
        exact once_of_body hfresh hbody
    | _ => simpa only [Client.next, hp] using h
  | computed since input content =>
    cases m <;> simp_all [Client.next, Client.Sound]
  | queued since input content =>
    cases m with
    | exec =>
      unfold Client.next
      simp only [hp]
      split <;> trivial
    | _ => simpa only [Client.next, hp] using h
  | returned a =>
    rw [Client.next_of_returned hp]
    exact h
  | raised e =>
    have hstay : c.next P cell writes m = c := by
      unfold Client.next
      cases m <;> simp only [hp]
    rw [hstay]
    exact h

/-! ### Every interleaving is serial -/

variable {initial : γ} {s : System ω ρ γ κ ε α}

theorem System.consistent_start (initial : γ) :
    ({ content := initial } : System ω ρ γ κ ε α).Consistent P initial where
  serial := .nil
  sound i c h := by simp at h
  nodup := List.nodup_nil
  returned i c a h := by simp at h
  committed m hm := by cases hm

/-- The clients after one of them is replaced. -/
theorem getElem?_set_some {clients : List (Client ω ρ γ κ ε α)} {i j : Nat}
    {c' d : Client ω ρ γ κ ε α} (h : (clients.set i c')[j]? = some d) :
    (j = i ∧ d = c') ∨ (j ≠ i ∧ clients[j]? = some d) := by
  rw [List.getElem?_set] at h
  by_cases hij : i = j
  · rw [if_pos hij] at h
    split at h
    · exact .inl ⟨hij.symm, (Option.some.inj h).symm⟩
    · cases h
  · rw [if_neg hij] at h
    exact .inr ⟨fun h' => hij h'.symm, h⟩

/-- A new call. -/
theorem System.Consistent.call (h : s.Consistent P initial) (op : ω) :
    (s.step P (.call op)).Consistent P initial := by
  have hold : ∀ {i : Nat} {c : Client ω ρ γ κ ε α},
      (s.clients ++ [⟨op, P.initial op, .ready⟩])[i]? = some c →
        s.clients[i]? = some c ∨ c = ⟨op, P.initial op, .ready⟩ := by
    intro i c hi
    rcases Nat.lt_or_ge i s.clients.length with hlt | hge
    · rw [List.getElem?_append_left hlt] at hi
      exact .inl hi
    · rw [List.getElem?_append_right hge] at hi
      exact .inr (List.mem_singleton.mp (List.mem_of_getElem? hi))
  refine ⟨h.serial, fun i c hi => ?_, h.nodup, fun i c a hi hret => ?_, fun m hm => ?_⟩
  · rcases hold hi with hi | rfl
    · exact h.sound i c hi
    · trivial
  · rcases hold hi with hi | rfl
    · exact h.returned i c a hi hret
    · cases hret
  · obtain ⟨c, hc, hrest⟩ := h.committed m hm
    refine ⟨c, ?_, hrest⟩
    change (s.clients ++ _)[m.client]? = some c
    rw [List.getElem?_append_left (List.getElem?_eq_some_iff.mp hc).1]
    exact hc

/-- A move of one client. -/
theorem System.Consistent.move (hfresh : P.Fresh) (h : s.Consistent P initial) (i : Nat)
    (m : Move ρ) : (s.step P (.move i m)).Consistent P initial := by
  cases hi : s.clients[i]? with
  | none =>
    rw [show s.step P (.move i m) = s by unfold System.step; simp only [hi]]
    exact h
  | some c =>
    have hlt : i < s.clients.length := (List.getElem?_eq_some_iff.mp hi).1
    have hc := h.sound i c hi
    cases hw : c.write? s.writes m with
    | none =>
      rw [show s.step P (.move i m) =
        { s with clients := s.clients.set i (c.next P s.content s.writes m) } by
          unfold System.step; simp only [hi, hw]]
      refine ⟨h.serial, fun j d hj => ?_, h.nodup, fun j d a hj hret => ?_, fun k hk => ?_⟩
      · rcases getElem?_set_some hj with ⟨-, rfl⟩ | ⟨-, hj⟩
        · exact hc.next hfresh m
        · exact h.sound j d hj
      · rcases getElem?_set_some hj with ⟨rfl, rfl⟩ | ⟨-, hj⟩
        · rw [Client.next_op]
          exact h.returned j c a hi (Client.returned_of_next hw hret)
        · exact h.returned j d a hj hret
      · obtain ⟨d, hd, hop, hret⟩ := h.committed k hk
        by_cases hki : k.client = i
        · have hdc : d = c := by
            rw [hki, hi, Option.some.injEq] at hd
            exact hd.symm
          subst hdc
          refine ⟨d, ?_, hop, hret⟩
          rw [hki, List.getElem?_set_self hlt, Client.next_of_returned hret]
        · exact ⟨d, by rw [List.getElem?_set_ne (Ne.symm hki)]; exact hd, hop, hret⟩
    | some x =>
      obtain ⟨input, content⟩ := x
      obtain ⟨hqueued, hnext⟩ : c.phase = .queued s.writes input content ∧
          c.next P s.content s.writes m =
            { c with phase := .returned (P.answer c.op c.captured) } :=
        Client.write?_eq_some hw
      have honce : P.once c.op input s.content = .ok (P.answer c.op c.captured, content) := by
        simp only [Client.Sound, hqueued] at hc
        exact hc.2 trivial
      have hfirst : i ∉ s.commits.map Commit.client := by
        intro hmem
        obtain ⟨k, hk, hki⟩ := List.mem_map.mp hmem
        obtain ⟨d, hd, -, hret⟩ := h.committed k hk
        rw [hki, hi, Option.some.injEq] at hd
        rw [← hd, hqueued] at hret
        cases hret
      rw [show s.step P (.move i m) = ⟨content, s.writes + 1,
        s.clients.set i { c with phase := .returned (P.answer c.op c.captured) },
        s.commits ++ [⟨i, c.op, input, P.answer c.op c.captured⟩]⟩ by
          unfold System.step; simp only [hi, hw, hnext]]
      refine ⟨.commit h.serial honce, fun j d hj => ?_, ?_, fun j d a hj hret => ?_, fun k hk => ?_⟩
      · rcases getElem?_set_some hj with ⟨-, rfl⟩ | ⟨-, hj⟩
        · trivial
        · exact (h.sound j d hj).stale
      · rw [List.map_append]
        refine List.nodup_append.mpr ⟨h.nodup, List.nodup_singleton i, ?_⟩
        intro a ha b hb heq
        rw [heq, List.mem_singleton.mp hb] at ha
        exact hfirst ha
      · rcases getElem?_set_some hj with ⟨rfl, rfl⟩ | ⟨-, hj⟩
        · cases hret
          exact ⟨input, List.mem_append_right _ (List.mem_singleton.mpr rfl)⟩
        · obtain ⟨input', hin⟩ := h.returned j d a hj hret
          exact ⟨input', List.mem_append_left _ hin⟩
      · rcases List.mem_append.mp hk with hk | hk
        · obtain ⟨d, hd, hrest⟩ := h.committed k hk
          have hne : k.client ≠ i := fun heq => hfirst (heq ▸ List.mem_map_of_mem hk)
          exact ⟨d, by rw [List.getElem?_set_ne (Ne.symm hne)]; exact hd, hrest⟩
        · cases List.mem_singleton.mp hk
          exact ⟨_, List.getElem?_set_self hlt, rfl, rfl⟩

/-- **Optimistic transactions are linearizable.** -/
theorem linearizable (hfresh : P.Fresh) (initial : γ) (steps : List (Step ω ρ)) :
    (Run.exec (System.step P) ({ content := initial } : System ω ρ γ κ ε α) steps).Consistent P
      initial := by
  refine Run.exec_invariant (fun s a h => ?_) (System.consistent_start initial) steps
  cases a with
  | call op => exact h.call op
  | move i m => exact h.move hfresh i m

end Optimistic
