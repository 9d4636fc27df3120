import Krewhub.Base.Connection
import Krewhub.Base.Coro

/-!
# What is put in behind a lock

A slot is filled by statements of a kind. A coroutine may fill it only inside of a lock, and only once a statement of
its own, awaited inside of the lock as well, has shown the slot empty; for each time it has been shown so, it is filled
once. All others leave the slot alone.

Then over every schedule and every cancellation the slot never holds more than one thing. A coroutine that is cancelled
leaves the lock at once, and what it has submitted still waits in the queue; but the check of the one that comes in
next waits behind it, and no longer shows the slot empty.

The second part is on what a coroutine has found before it returns.
-/

namespace Krewhub

/-- The statements of a coroutine over a state; each gives the state it has met. -/
def Async.ofCoro {σ Op ε α : Type} : Coro σ Op ε α → Async Op σ ε α
  | .done a => .done a
  | .raise e => .raise e
  | .await op next => .execute op fun s => ofCoro (next s)

/-- How much is in, which statements put something in, and which results show that nothing is, in the states that
come up. -/
structure Slot (σ Stmt Res : Type) where
  exec : Stmt → σ → σ × Res
  valid : σ → Prop
  content : σ → Nat
  fills : Stmt → Bool
  showsEmpty : Stmt → Res → Prop
  valid_exec : ∀ stmt s, valid s → valid (exec stmt s).1
  content_exec : ∀ stmt s, valid s → content (exec stmt s).1 ≤ content s + (fills stmt).toNat
  of_showsEmpty : ∀ stmt s, valid s → showsEmpty stmt (exec stmt s).2 → fills stmt = false ∧ content s = 0

namespace Coro

variable {σ Op ε α β : Type} {P : Op → Prop}

/-- All operations but the first satisfy `P`. -/
def AfterFirst (P : Op → Prop) : Coro σ Op ε α → Prop
  | .done _ => True
  | .raise _ => True
  | .await _ next => ∀ s, (next s).Every P

theorem Every.afterFirst {c : Coro σ Op ε α} (hc : c.Every P) : c.AfterFirst P := by
  cases c with
  | done a => trivial
  | raise e => trivial
  | await op next => exact hc.2

theorem AfterFirst.bind {c : Coro σ Op ε α} {f : α → Coro σ Op ε β} (hc : c.AfterFirst P) (hf : ∀ a, (f a).Every P) :
    (c >>= f).AfterFirst P := by
  cases c with
  | done a => exact (hf a).afterFirst
  | raise e => trivial
  | await op next => exact fun s => (hc s).bind hf

theorem AfterFirst.attempt {c : Coro σ Op ε α} (hc : c.AfterFirst P) : c.attempt.AfterFirst P := by
  cases c with
  | done a => trivial
  | raise e => trivial
  | await op next => exact fun s => (hc s).attempt

theorem AfterFirst.within {τ Op' : Type} {P' : Op' → Prop} {c : Coro σ Op ε α} (hc : c.AfterFirst P)
    {view : τ → σ} {label : Op → Op'} (hP : ∀ op, P op → P' (label op)) : (c.within view label).AfterFirst P' := by
  cases c with
  | done a => trivial
  | raise e => trivial
  | await op next => exact fun t => (hc (view t)).within hP

end Coro

namespace Async

section Bind

variable {Stmt Res ε α β γ : Type}

theorem bind_assoc (p : Async Stmt Res ε α) (f : α → Async Stmt Res ε β) (g : β → Async Stmt Res ε γ) :
    p >>= f >>= g = p >>= fun a => f a >>= g := by
  induction p with
  | done a => rfl
  | raise e => rfl
  | execute stmt next ih => exact congrArg (Async.execute stmt) (funext ih)
  | acquire lock next ih => exact congrArg (Async.acquire lock) ih
  | release lock next ih => exact congrArg (Async.release lock) ih

theorem within_bind (lock : String) (body : Async Stmt Res ε α) (f : α → Async Stmt Res ε β) :
    within lock body >>= f = .acquire lock (body >>= fun a => .release lock (f a)) :=
  congrArg (Async.acquire lock) (bind_assoc body _ f)

end Bind

variable {σ Op Stmt Res ε α β : Type} (S : Slot σ Stmt Res) (lock : String)

/-- The coroutine, inside of the lock or not, and with the slot shown empty since it is in there or not, fills the slot
only where both hold. -/
def Guarded (inside empty : Prop) : Async Stmt Res ε α → Prop
  | .done _ => True
  | .raise _ => True
  | .execute stmt next => (S.fills stmt = true → inside ∧ empty) ∧
      ∀ r, (next r).Guarded inside (inside ∧ (empty ∧ S.fills stmt = false ∨ S.showsEmpty stmt r))
  | .acquire other next => if other = lock then next.Guarded True False else next.Guarded inside empty
  | .release other next => if other = lock then inside ∧ next.Guarded False False else next.Guarded inside empty

variable {S lock} {inside empty : Prop}

theorem Guarded.mono {empty' : Prop} {p : Async Stmt Res ε α} (h : p.Guarded S lock inside empty)
    (hempty : empty → empty') : p.Guarded S lock inside empty' := by
  induction p generalizing empty empty' with
  | done a => trivial
  | raise e => trivial
  | execute stmt next ih =>
    refine ⟨fun hfills => (h.1 hfills).imp id hempty, fun r => ih r (h.2 r) ?_⟩
    exact And.imp_right (Or.imp_left (And.imp_left hempty))
  | acquire other next ih =>
    unfold Guarded at h ⊢
    split
    next hother => rwa [if_pos hother] at h
    next hother => exact ih (by rwa [if_neg hother] at h) hempty
  | release other next ih =>
    unfold Guarded at h ⊢
    split
    next hother => rwa [if_pos hother] at h
    next hother => exact ih (by rwa [if_neg hother] at h) hempty

theorem Guarded.congr {inside' : Prop} {p : Async Stmt Res ε α} (h : p.Guarded S lock inside empty)
    (hinside : inside ↔ inside') : p.Guarded S lock inside' empty := propext hinside ▸ h

/-- Statements that leave the slot alone, and what comes after them. -/
theorem guarded_ofCoro_bind {T : Slot σ Op σ} {c : Coro σ Op ε α} {f : α → Async Op σ ε β} (hempty : empty → inside)
    (hc : c.Every fun op => T.fills op = false) (hf : ∀ a, (f a).Guarded T lock inside empty) :
    (ofCoro c >>= f).Guarded T lock inside empty := by
  induction c with
  | done a => exact hf a
  | raise e => trivial
  | await op next ih =>
    refine ⟨fun hfills => ?_, fun s => (ih s (hc.2 s)).mono fun h => ⟨hempty h, .inl ⟨h, hc.1⟩⟩⟩
    rw [hc.1] at hfills
    cases hfills

/-- Statements of which the first may fill the slot. -/
theorem guarded_ofCoro_bind_first {T : Slot σ Op σ} {c : Coro σ Op ε α} {f : α → Async Op σ ε β} (hinside : inside)
    (hempty : empty) (hc : c.AfterFirst fun op => T.fills op = false) (hf : ∀ a, (f a).Guarded T lock inside False) :
    (ofCoro c >>= f).Guarded T lock inside empty := by
  cases c with
  | done a => exact (hf a).mono False.elim
  | raise e => trivial
  | await op next =>
    exact ⟨fun _ => ⟨hinside, hempty⟩, fun s => (guarded_ofCoro_bind False.elim (hc s) hf).mono False.elim⟩

/-- A value with `Q` is returned only once a result has shown what there is to show. -/
def Shown (shows : Stmt → Res → Prop) (Q : α → Prop) (known : Prop) : Async Stmt Res ε α → Prop
  | .done a => Q a → known
  | .raise _ => True
  | .execute stmt next => ∀ r, (next r).Shown shows Q (known ∨ shows stmt r)
  | .acquire _ next => next.Shown shows Q known
  | .release _ next => next.Shown shows Q known

section Shown

variable {known : Prop}

theorem Shown.mono {known' : Prop} {shows : Stmt → Res → Prop} {Q : α → Prop} {p : Async Stmt Res ε α}
    (h : p.Shown shows Q known) (hknown : known → known') : p.Shown shows Q known' := by
  induction p generalizing known known' with
  | done a => exact fun hQ => hknown (h hQ)
  | raise e => trivial
  | execute stmt next ih => exact fun r => ih r (h r) (Or.imp_left hknown)
  | acquire lock next ih => exact ih h hknown
  | release lock next ih => exact ih h hknown

theorem shown_of_known {shows : Stmt → Res → Prop} {Q : α → Prop} (h : known) (p : Async Stmt Res ε α) :
    p.Shown shows Q known := by
  induction p generalizing known with
  | done a => exact fun _ => h
  | raise e => trivial
  | execute stmt next ih => exact fun r => ih r (.inl h)
  | acquire lock next ih => exact ih h
  | release lock next ih => exact ih h

theorem shown_ofCoro_bind {shows : Op → σ → Prop} {Q : β → Prop} {c : Coro σ Op ε α} {f : α → Async Op σ ε β}
    (hf : ∀ a, (f a).Shown shows Q known) : (ofCoro c >>= f).Shown shows Q known := by
  induction c with
  | done a => exact hf a
  | raise e => trivial
  | await op next ih => exact fun s => (ih s).mono .inl

end Shown

end Async

namespace Connection

variable {ι σ Stmt Res ε α : Type}

/-- Coroutines that are about to begin. -/
def start (table : σ) (program : ι → Async Stmt Res ε α) : Connection ι σ Stmt Res ε α where
  table := table
  job i := .ready (program i)

/-- What a coroutine has returned, if it has. -/
def returned (c : Connection ι σ Stmt Res ε α) (i : ι) : Option α :=
  match c.job i with
  | .ready (.done a) => some a
  | _ => none

section Slot

variable (S : Slot σ Stmt Res) (lock : String)

/-- What is in, and what waits to be put in. -/
def weight (c : Connection ι σ Stmt Res ε α) : Nat := S.content c.table + c.queue.countP fun x => S.fills x.2

/-- Nothing that fills the slot waits behind the statement of the coroutine. -/
def LastFill (queue : List (ι × Stmt)) (i : ι) (stmt : Stmt) : Prop :=
  ∃ before after, queue = before ++ (i, stmt) :: after ∧ ∀ x ∈ after, S.fills x.2 = false

/-- What is left of the coroutine is guarded, and what it has been shown is so. -/
def Guards (c : Connection ι σ Stmt Res ε α) (i : ι) : Prop :=
  match c.job i with
  | .ready rest => ∃ empty : Prop, rest.Guarded S lock (c.holder lock = some i) empty ∧
      (c.holder lock = some i → empty → c.weight S = 0)
  | .waiting stmt next => ∃ empty : Prop,
      (∀ r, (next r).Guarded S lock (c.holder lock = some i)
        (c.holder lock = some i ∧ (empty ∨ S.showsEmpty stmt r))) ∧
      (c.holder lock = some i → (empty → c.weight S = 0) ∧
        (c.answer i = none → LastFill S c.queue i stmt) ∧
        ∀ r ∈ c.answer i, S.showsEmpty stmt r → c.weight S = 0)
  | .cancelled => True

variable {S lock} {c c' : Connection ι σ Stmt Res ε α} {i j : ι}

/-- What happens beside a coroutine. -/
theorem Guards.of_eq (h : c.Guards S lock j) (hjob : c'.job j = c.job j) (hanswer : c'.answer j = c.answer j)
    (hholder : c'.holder lock = some j ↔ c.holder lock = some j)
    (hweight : c.holder lock = some j → c.weight S = 0 → c'.weight S = 0)
    (hqueue : c.holder lock = some j → ∀ stmt, LastFill S c.queue j stmt → LastFill S c'.queue j stmt) :
    c'.Guards S lock j := by
  unfold Guards at h ⊢
  rw [hjob, hanswer, propext hholder]
  cases hcase : c.job j with
  | ready rest =>
    rw [hcase] at h
    obtain ⟨empty, hrest, hzero⟩ := h
    exact ⟨empty, hrest, fun hin hempty => hweight hin (hzero hin hempty)⟩
  | waiting stmt next =>
    rw [hcase] at h
    obtain ⟨empty, hnext, hknows⟩ := h
    refine ⟨empty, hnext, fun hin => ?_⟩
    obtain ⟨hzero, hlast, hshown⟩ := hknows hin
    exact ⟨fun hempty => hweight hin (hzero hempty), fun hnone => hqueue hin stmt (hlast hnone),
      fun r hr hempty => hweight hin (hshown r hr hempty)⟩
  | cancelled => trivial

/-- The coroutine itself goes on. -/
theorem guards_ready {rest : Async Stmt Res ε α} {empty : Prop} (hjob : c.job i = .ready rest)
    (hrest : rest.Guarded S lock (c.holder lock = some i) empty)
    (hzero : c.holder lock = some i → empty → c.weight S = 0) : c.Guards S lock i := by
  unfold Guards
  rw [hjob]
  exact ⟨empty, hrest, hzero⟩

theorem weight_eq_zero : c.weight S = 0 ↔ S.content c.table = 0 ∧ ∀ x ∈ c.queue, S.fills x.2 = false := by
  rw [weight, Nat.add_eq_zero_iff, List.countP_eq_zero]
  simp

/-- Who fills the slot is inside of the lock and has found it empty. -/
theorem Guards.fills {stmt : Stmt} {next : Res → Async Stmt Res ε α} (h : c.Guards S lock i)
    (hjob : c.job i = .ready (.execute stmt next)) (hfills : S.fills stmt = true) :
    c.holder lock = some i ∧ c.weight S = 0 := by
  unfold Guards at h
  rw [hjob] at h
  obtain ⟨empty, hrest, hzero⟩ := h
  obtain ⟨hin, hempty⟩ := hrest.1 hfills
  exact ⟨hin, hzero hin hempty⟩

/-! ### Turns -/

variable [DecidableEq ι]

theorem weight_step_execute {stmt : Stmt} {next : Res → Async Stmt Res ε α}
    (hjob : c.job i = .ready (.execute stmt next)) :
    (c.step i).weight S = c.weight S + (S.fills stmt).toNat := by
  rw [step_execute hjob]
  unfold weight
  dsimp only
  rw [List.countP_append, List.countP_singleton, Nat.add_assoc]
  cases S.fills stmt <;> rfl

theorem guards_step_execute {stmt : Stmt} {next : Res → Async Stmt Res ε α} (h : ∀ j, c.Guards S lock j)
    (hjob : c.job i = .ready (.execute stmt next)) (j : ι) : (c.step i).Guards S lock j := by
  have hweight : S.fills stmt = false → c.weight S = 0 → (c.step i).weight S = 0 := fun hfills hzero => by
    rw [weight_step_execute hjob, hzero, hfills]
    rfl
  by_cases hj : j = i
  · subst hj
    have hj := h j
    unfold Guards at hj
    rw [hjob] at hj
    obtain ⟨empty, hrest, hzero⟩ := hj
    rw [step_execute hjob] at hweight ⊢
    unfold Guards
    dsimp only
    rw [Function.update_self, Function.update_self]
    refine ⟨empty ∧ S.fills stmt = false, hrest.2, fun hin => ⟨fun hempty => ?_, fun _ => ?_, fun r hr => by cases hr⟩⟩
    · exact hweight hempty.2 (hzero hin hempty.1)
    · exact ⟨c.queue, [], rfl, fun x hx => by cases hx⟩
  · have hother : c.holder lock = some j → S.fills stmt = false := fun hin => by
      cases hfills : S.fills stmt with
      | false => rfl
      | true =>
        rw [((h i).fills hjob hfills).1] at hin
        exact absurd (Option.some.inj hin).symm hj
    refine (h j).of_eq ?_ ?_ ?_ (fun hin => hweight (hother hin)) ?_ <;> rw [step_execute hjob]
    · exact Function.update_of_ne hj _ _
    · exact Function.update_of_ne hj _ _
    · rintro hin stmt' ⟨before, after, hqueue, hafter⟩
      refine ⟨before, after ++ [(i, stmt)], by rw [hqueue, List.append_assoc, List.cons_append], fun x hx => ?_⟩
      rcases List.mem_append.mp hx with hx | hx
      · exact hafter x hx
      · rw [List.mem_singleton.mp hx]
        exact hother hin

/-- A coroutine comes into a lock or leaves it, and goes on. -/
theorem guards_move {holder : String → Option ι} {answer : ι → Option Res} {rest : Async Stmt Res ε α} {empty : Prop}
    (h : ∀ j, c.Guards S lock j) (hholder : ∀ j ≠ i, holder lock = some j ↔ c.holder lock = some j)
    (hanswer : ∀ j ≠ i, answer j = c.answer j)
    (hrest : rest.Guarded S lock (holder lock = some i) empty)
    (hzero : holder lock = some i → empty → c.weight S = 0) (j : ι) :
    Guards S lock
      { c with holder := holder, answer := answer, job := Function.update c.job i (.ready rest) } j := by
  by_cases hj : j = i
  · subst hj
    unfold Guards
    dsimp only
    rw [Function.update_self]
    exact ⟨empty, hrest, hzero⟩
  · exact (h j).of_eq (Function.update_of_ne hj _ _) (hanswer j hj) (hholder j hj) (fun _ hzero => hzero)
      fun _ _ hlast => hlast

theorem freed_eq_some {holder : String → Option ι} (hj : j ≠ i) :
    freed i holder lock = some j ↔ holder lock = some j := by
  unfold freed
  split
  next hin =>
    rw [hin]
    exact iff_of_false (Option.some_ne_none j).symm fun h => hj (Option.some.inj h).symm
  next => rfl

theorem guards_step (h : ∀ j, c.Guards S lock j) (i j : ι) : (c.step i).Guards S lock j := by
  have hi := h i
  unfold Guards at hi
  cases hjob : c.job i with
  | ready rest =>
    rw [hjob] at hi
    obtain ⟨empty, hrest, hzero⟩ := hi
    cases rest with
    | done a =>
      rw [step_done hjob]
      exact h j
    | raise e =>
      rw [step, hjob]
      exact h j
    | execute stmt next => exact guards_step_execute h hjob j
    | acquire other next =>
      rw [step_acquire hjob]
      split
      next hfree =>
        by_cases hother : other = lock
        · subst hother
          rw [Async.Guarded, if_pos rfl] at hrest
          have hself : Function.update c.holder other (some i) other = some i := Function.update_self _ _ _
          refine guards_move h (fun j hj => ?_) (fun _ _ => rfl) (hrest.congr (iff_of_true trivial hself))
            (fun _ h => h.elim) j
          rw [hself, hfree]
          exact iff_of_false (fun h => hj (Option.some.inj h).symm) (Option.some_ne_none j).symm
        · rw [Async.Guarded, if_neg hother] at hrest
          have hsame : Function.update c.holder other (some i) lock = c.holder lock :=
            Function.update_of_ne (Ne.symm hother) _ _
          refine guards_move h (fun j _ => by rw [hsame]) (fun _ _ => rfl) (hrest.congr (by rw [hsame])) ?_ j
          rw [hsame]
          exact hzero
      next => exact h j
    | release other next =>
      rw [step_release hjob]
      by_cases hother : other = lock
      · subst hother
        rw [Async.Guarded, if_pos rfl] at hrest
        refine guards_move h (fun j hj => ?_) (fun _ _ => rfl) (hrest.2.congr ?_) (fun _ h => h.elim) j
        · rw [Function.update_self, hrest.1]
          exact iff_of_false (Option.some_ne_none j).symm fun h => hj (Option.some.inj h).symm
        · rw [Function.update_self]
          exact iff_of_false (fun h => h) (Option.some_ne_none i).symm
      · rw [Async.Guarded, if_neg hother] at hrest
        have hsame : Function.update c.holder other none lock = c.holder lock :=
          Function.update_of_ne (Ne.symm hother) _ _
        refine guards_move h (fun j _ => by rw [hsame]) (fun _ _ => rfl) (hrest.congr (by rw [hsame])) ?_ j
        rw [hsame]
        exact hzero
  | waiting stmt next =>
    rw [hjob] at hi
    obtain ⟨empty, hnext, hknows⟩ := hi
    rw [step_waiting hjob]
    cases hanswer : c.answer i with
    | none => exact h j
    | some r =>
      rw [Option.elim_some, resume]
      have hanswers : ∀ j ≠ i, Function.update c.answer i none j = c.answer j := fun j hj =>
        Function.update_of_ne hj _ _
      cases hraises : (next r).raises with
      | true =>
        cases hrest : next r
        case raise e =>
          exact guards_move h (fun _ hj => freed_eq_some hj) hanswers
            (show (Async.raise e).Guarded S lock _ False from trivial) (fun _ h => h.elim) j
        all_goals
          rw [hrest] at hraises
          cases hraises
      | false =>
        refine guards_move h (fun _ _ => Iff.rfl) hanswers (hnext r) (fun hin hshown => ?_) j
        obtain ⟨hzero, -, hclear⟩ := hknows hin
        exact hshown.2.elim hzero (hclear r hanswer)
  | cancelled =>
    rw [step_cancelled hjob]
    exact h j

theorem guards_cancel (h : ∀ j, c.Guards S lock j) (i j : ι) : (c.cancel i).Guards S lock j := by
  rcases cancel_eq c i with heq | heq <;> rw [heq]
  · exact h j
  · by_cases hj : j = i
    · subst hj
      unfold Guards
      dsimp only
      rw [Function.update_self]
      trivial
    · exact (h j).of_eq (Function.update_of_ne hj _ _) rfl (freed_eq_some hj) (fun _ hzero => hzero)
        fun _ _ hlast => hlast

theorem serve_nil (hqueue : c.queue = []) : c.serve S.exec = c := by rw [serve, hqueue]

/-- What is executed has waited before. -/
theorem weight_serve (hvalid : S.valid c.table) : (c.serve S.exec).weight S ≤ c.weight S := by
  cases hqueue : c.queue with
  | nil => exact Nat.le_of_eq (congrArg (weight S) (serve_nil hqueue))
  | cons head queue =>
    obtain ⟨i, stmt⟩ := head
    rw [serve_cons hqueue, weight, weight, hqueue, List.countP_cons]
    dsimp only
    have hcontent := S.content_exec stmt c.table hvalid
    cases hfills : S.fills stmt with
    | false =>
      rw [hfills, Bool.toNat_false] at hcontent
      rw [if_neg Bool.false_ne_true]
      omega
    | true =>
      rw [hfills, Bool.toNat_true] at hcontent
      rw [if_pos rfl]
      omega

theorem not_mem_of_submitted {queue : List (ι × Stmt)} {stmt : Stmt} (h : submitted queue i = []) :
    (i, stmt) ∉ queue := by
  intro hmem
  have hsubmitted : (i, stmt) ∈ submitted queue i := List.mem_filter.mpr ⟨hmem, beq_self_eq_true i⟩
  rw [h] at hsubmitted
  cases hsubmitted

theorem guards_serve (hvalid : S.valid c.table) (hpaired : ∀ j, c.Paired j) (h : ∀ j, c.Guards S lock j) (j : ι) :
    (c.serve S.exec).Guards S lock j := by
  have hweight := weight_serve hvalid
  cases hqueue : c.queue with
  | nil =>
    rw [serve_nil hqueue]
    exact h j
  | cons head queue =>
    obtain ⟨i, stmt⟩ := head
    rw [serve_cons hqueue] at hweight ⊢
    have hzero : c.weight S = 0 → _ := fun hzero => Nat.le_zero.mp (hzero ▸ hweight)
    by_cases hj : j = i
    · subst hj
      have hown := hpaired j
      have hj := h j
      unfold Paired at hown
      rw [hqueue, submitted_cons_self] at hown
      unfold Guards at hj ⊢
      dsimp only
      cases hjob : c.job j with
      | ready rest =>
        rw [hjob] at hj
        obtain ⟨empty, hrest, hknows⟩ := hj
        exact ⟨empty, hrest, fun hin hempty => hzero (hknows hin hempty)⟩
      | waiting stmt' next =>
        rw [hjob] at hj hown
        obtain ⟨empty, hnext, hknows⟩ := hj
        refine ⟨empty, hnext, fun hin => ?_⟩
        obtain ⟨hempty, hlast, -⟩ := hknows hin
        refine ⟨fun h => hzero (hempty h), fun hnone => ?_, fun r hr hshows => ?_⟩
        · rw [Function.update_self] at hnone
          cases hnone
        · rw [Function.update_self, Option.mem_some_iff] at hr
          subst hr
          rcases hown with ⟨hanswer, hown⟩ | ⟨-, hown⟩
          · obtain ⟨hhead, hrest⟩ := List.cons.inj hown
            obtain rfl : stmt = stmt' := congrArg Prod.snd hhead
            obtain ⟨hfills, hcontent⟩ := S.of_showsEmpty stmt c.table hvalid hshows
            obtain ⟨before, after, hsplit, hafter⟩ := hlast hanswer
            rw [hqueue] at hsplit
            have hexec := S.content_exec stmt c.table hvalid
            rw [hfills, hcontent] at hexec
            refine weight_eq_zero.mpr ⟨Nat.le_zero.mp hexec, fun x hx => hafter x ?_⟩
            cases before with
            | nil =>
              obtain ⟨-, hsame⟩ := List.cons.inj hsplit
              exact hsame ▸ hx
            | cons first before =>
              obtain ⟨-, hsame⟩ := List.cons.inj hsplit
              refine absurd (show (j, stmt) ∈ queue from ?_) (not_mem_of_submitted hrest)
              rw [hsame]
              exact List.mem_append_right _ List.mem_cons_self
          · cases hown
      | cancelled => trivial
    · refine (h j).of_eq rfl (Function.update_of_ne hj _ _) Iff.rfl (fun _ => hzero) ?_
      rintro - stmt' ⟨before, after, hsplit, hafter⟩
      rw [hqueue] at hsplit
      cases before with
      | nil =>
        obtain ⟨hhead, -⟩ := List.cons.inj hsplit
        exact absurd (congrArg Prod.fst hhead).symm hj
      | cons first before =>
        obtain ⟨-, hsame⟩ := List.cons.inj hsplit
        exact ⟨before, after, hsame, hafter⟩

/-! ### Runs -/

/-- A step of a coroutine only submits. -/
theorem table_step (c : Connection ι σ Stmt Res ε α) (i : ι) : (c.step i).table = c.table := by
  unfold step
  split
  all_goals
    first
    | rfl
    | split <;> rfl

/-- Each coroutine is guarded, and at most one thing is in or waits to be put in. -/
structure Single (S : Slot σ Stmt Res) (lock : String) (c : Connection ι σ Stmt Res ε α) : Prop where
  valid : S.valid c.table
  paired : ∀ i, c.Paired i
  guards : ∀ i, c.Guards S lock i
  weight_le : c.weight S ≤ 1

theorem weight_step (h : c.Single S lock) (i : ι) : (c.step i).weight S ≤ 1 := by
  have hle := h.weight_le
  unfold step
  split
  next stmt next hjob =>
    have hweight := weight_step_execute (S := S) hjob
    rw [step_execute hjob] at hweight
    rw [hweight]
    cases hfills : S.fills stmt with
    | false => exact hle
    | true =>
      rw [((h.guards i).fills hjob hfills).2]
      exact Nat.le_refl 1
  all_goals
    first
    | exact hle
    | split <;> exact hle

theorem Single.take (h : c.Single S lock) (turn : ConnectionTurn ι) : (c.take S.exec turn).Single S lock where
  valid := by
    cases turn with
    | run i => rw [Connection.take, table_step]; exact h.valid
    | cancel i => rcases cancel_eq c i with heq | heq <;> rw [Connection.take, heq] <;> exact h.valid
    | serve =>
      rw [Connection.take]
      unfold serve
      split
      next => exact h.valid
      next => exact S.valid_exec _ _ h.valid
  paired := paired_take h.paired turn
  guards j := by
    cases turn with
    | run i => exact guards_step h.guards i j
    | cancel i => exact guards_cancel h.guards i j
    | serve => exact guards_serve h.valid h.paired h.guards j
  weight_le := by
    cases turn with
    | run i => exact weight_step h i
    | cancel i =>
      rcases cancel_eq c i with heq | heq <;> rw [Connection.take, heq] <;> exact h.weight_le
    | serve => exact Nat.le_trans (weight_serve h.valid) h.weight_le

variable {table : σ} {program : ι → Async Stmt Res ε α}

theorem single_start (hvalid : S.valid table) (hcontent : S.content table ≤ 1)
    (hprogram : ∀ i, (program i).Guarded S lock False False) : (start table program).Single S lock where
  valid := hvalid
  paired _ := rfl
  guards i := guards_ready rfl ((hprogram i).congr (iff_of_false (fun h => h) (Option.some_ne_none i).symm))
    fun _ h => h.elim
  weight_le := hcontent

/-- The slot never holds more than one thing. -/
theorem single_run (hvalid : S.valid table) (hcontent : S.content table ≤ 1)
    (hprogram : ∀ i, (program i).Guarded S lock False False) (turns : List (ConnectionTurn ι)) :
    ((start table program).run S.exec turns).Single S lock :=
  inv_run (I := Single S lock) (fun _ turn h => h.take turn) (single_start hvalid hcontent hprogram) turns

end Slot

/-! ### What is found before the return -/

section Found

variable (shows : Stmt → Res → Prop) (Q : α → Prop) (P : σ → Prop)

/-- What has been shown to the coroutine is so. -/
def Found (c : Connection ι σ Stmt Res ε α) (i : ι) : Prop :=
  match c.job i with
  | .ready rest => ∃ known : Prop, rest.Shown shows Q known ∧ (known → P c.table)
  | .waiting stmt next => ∃ known : Prop, (∀ r, (next r).Shown shows Q (known ∨ shows stmt r)) ∧
      (known → P c.table) ∧ ∀ r ∈ c.answer i, shows stmt r → P c.table
  | .cancelled => True

variable {shows Q P} {c c' : Connection ι σ Stmt Res ε α} {i j : ι}

theorem Found.of_eq (h : c.Found shows Q P i) (hjob : c'.job i = c.job i) (hanswer : c'.answer i = c.answer i)
    (htable : P c.table → P c'.table) : c'.Found shows Q P i := by
  unfold Found at h ⊢
  rw [hjob, hanswer]
  cases hcase : c.job i with
  | ready rest =>
    rw [hcase] at h
    obtain ⟨known, hrest, hknown⟩ := h
    exact ⟨known, hrest, fun hk => htable (hknown hk)⟩
  | waiting stmt next =>
    rw [hcase] at h
    obtain ⟨known, hnext, hknown, hanswered⟩ := h
    exact ⟨known, hnext, fun hk => htable (hknown hk), fun r hr hshows => htable (hanswered r hr hshows)⟩
  | cancelled => trivial

theorem found_ready {rest : Async Stmt Res ε α} {known : Prop} (hjob : c.job i = .ready rest)
    (hrest : rest.Shown shows Q known) (hknown : known → P c.table) : c.Found shows Q P i := by
  unfold Found
  rw [hjob]
  exact ⟨known, hrest, hknown⟩

variable [DecidableEq ι]

/-- A step leaves the other coroutines. -/
theorem step_other (hj : j ≠ i) : (c.step i).job j = c.job j ∧ (c.step i).answer j = c.answer j := by
  unfold step
  split
  next => exact ⟨Function.update_of_ne hj _ _, Function.update_of_ne hj _ _⟩
  next =>
    split
    · exact ⟨Function.update_of_ne hj _ _, rfl⟩
    · exact ⟨rfl, rfl⟩
  next => exact ⟨Function.update_of_ne hj _ _, rfl⟩
  next =>
    split
    · exact ⟨Function.update_of_ne hj _ _, Function.update_of_ne hj _ _⟩
    · exact ⟨rfl, rfl⟩
  next => exact ⟨rfl, rfl⟩

theorem found_step (h : c.Found shows Q P i) : (c.step i).Found shows Q P i := by
  have hi := h
  unfold Found at hi
  cases hjob : c.job i with
  | ready rest =>
    rw [hjob] at hi
    obtain ⟨known, hrest, hknown⟩ := hi
    cases rest with
    | done a => rwa [step_done hjob]
    | raise e =>
      rw [step, hjob]
      exact h
    | execute stmt next =>
      rw [step_execute hjob]
      unfold Found
      dsimp only
      rw [Function.update_self, Function.update_self]
      exact ⟨known, hrest, hknown, fun r hr => by cases hr⟩
    | acquire lock next =>
      rw [step_acquire hjob]
      split
      · exact found_ready (Function.update_self _ _ _) (show next.Shown shows Q known from hrest) hknown
      · exact h
    | release lock next =>
      rw [step_release hjob]
      exact found_ready (Function.update_self _ _ _) (show next.Shown shows Q known from hrest) hknown
  | waiting stmt next =>
    rw [hjob] at hi
    obtain ⟨known, hnext, hknown, hanswered⟩ := hi
    rw [step_waiting hjob]
    cases hanswer : c.answer i with
    | none => exact h
    | some r =>
      exact found_ready (Function.update_self _ _ _) (hnext r) fun hk => hk.elim hknown (hanswered r hanswer)
  | cancelled => rwa [step_cancelled hjob]

theorem found_cancel (h : c.Found shows Q P i) (j : ι) : (c.cancel j).Found shows Q P i := by
  rcases cancel_eq c j with heq | heq <;> rw [heq]
  · exact h
  · by_cases hj : i = j
    · subst hj
      unfold Found
      dsimp only
      rw [Function.update_self]
      trivial
    · exact h.of_eq (Function.update_of_ne hj _ _) rfl fun hP => hP

variable {exec : Stmt → σ → σ × Res} (hkeeps : ∀ stmt s, P s → P (exec stmt s).1)
  (hshows : ∀ stmt s, shows stmt (exec stmt s).2 → P (exec stmt s).1)
include hkeeps hshows

theorem found_serve (hpaired : c.Paired i) (h : c.Found shows Q P i) : (c.serve exec).Found shows Q P i := by
  unfold serve
  split
  next => exact h
  next j stmt queue hqueue =>
    by_cases hj : i = j
    · subst hj
      unfold Paired at hpaired
      rw [hqueue, submitted_cons_self] at hpaired
      unfold Found at h ⊢
      dsimp only
      cases hjob : c.job i with
      | ready rest =>
        rw [hjob] at h
        obtain ⟨known, hrest, hknown⟩ := h
        exact ⟨known, hrest, fun hk => hkeeps _ _ (hknown hk)⟩
      | waiting stmt' next =>
        rw [hjob] at h hpaired
        obtain ⟨known, hnext, hknown, -⟩ := h
        refine ⟨known, hnext, fun hk => hkeeps _ _ (hknown hk), fun r hr hshown => ?_⟩
        rw [Function.update_self, Option.mem_some_iff] at hr
        subst hr
        rcases hpaired with ⟨-, hown⟩ | ⟨-, hown⟩
        · obtain rfl : stmt = stmt' := congrArg Prod.snd (List.cons.inj hown).1
          exact hshows stmt c.table hshown
        · cases hown
      | cancelled => trivial
    · exact h.of_eq rfl (Function.update_of_ne hj _ _) (hkeeps _ _)

theorem found_take (hpaired : c.Paired i) (h : c.Found shows Q P i) (turn : ConnectionTurn ι) :
    (c.take exec turn).Found shows Q P i := by
  cases turn with
  | run j =>
    by_cases hj : i = j
    · subst hj
      exact found_step h
    · obtain ⟨hjob, hanswer⟩ := step_other (c := c) hj
      exact h.of_eq hjob hanswer fun hP => (table_step c j).symm ▸ hP
  | cancel j => exact found_cancel h j
  | serve => exact found_serve hkeeps hshows hpaired h

/-- Once a coroutine has returned a value with `Q`, what it has been shown is so. -/
theorem of_returned {table : σ} {program : ι → Async Stmt Res ε α} {a : α}
    (hprogram : (program i).Shown shows Q False) (turns : List (ConnectionTurn ι))
    (hreturned : ((start table program).run exec turns).returned i = some a) (hQ : Q a) :
    P ((start table program).run exec turns).table := by
  have hstep : ∀ (c : Connection ι σ Stmt Res ε α) (turn : ConnectionTurn ι),
      (∀ j, c.Paired j) ∧ c.Found shows Q P i →
        (∀ j, (c.take exec turn).Paired j) ∧ (c.take exec turn).Found shows Q P i := fun c turn hc =>
    ⟨paired_take hc.1 turn, found_take hkeeps hshows (hc.1 i) hc.2 turn⟩
  have hstart : (∀ j, (start table program).Paired j) ∧ (start table program).Found shows Q P i :=
    ⟨fun _ => rfl, found_ready rfl hprogram False.elim⟩
  have hfound := (inv_run hstep hstart turns).2
  unfold returned at hreturned
  unfold Found at hfound
  split at hreturned
  next a' hjob =>
    obtain rfl := Option.some.inj hreturned
    rw [hjob] at hfound
    obtain ⟨known, hdone, hknown⟩ := hfound
    exact hknown (hdone hQ)
  next => cases hreturned

end Found

end Connection

end Krewhub
