import Scratchbox.Lib.Calls

/-!
# Rules for call trees

Proof rules for functions given as call trees: what every answer satisfies
(`Sat.sound`), and when the answers of two functions correspond (`Follows.sound`).
-/

namespace CallTree

variable {Q A E F α β γ δ : Type} {body : Q → CallTree Q A E F A}

/-! ## Questions -/

/-- The tree asks the question, given the answers to the ones before it. -/
inductive Asks (body : Q → CallTree Q A E F A) : CallTree Q A E F α → Q → Prop
  | here {q : Q} {k : A → CallTree Q A E F α} : Asks body (call q k) q
  | log {e : E} {t : CallTree Q A E F α} {q : Q} : Asks body t q → Asks body (log e t) q
  | next {q q' : Q} {k : A → CallTree Q A E F α} {es : List E} {a : A} :
      Answers body q es a → Asks body (k a) q' → Asks body (call q k) q'

/-- Reported events do not matter for what is found behind them. -/
theorem forM_report_iff (P : CallTree Q A E F α → Prop) (hlog : ∀ e t, P (log e t) ↔ P t)
    {γ : Type} (l : List γ) (g : γ → E) (k : Unit → CallTree Q A E F α) :
    P ((l.forM fun c => report (g c)) >>= k) ↔ P (k ()) := by
  induction l with
  | nil => exact Iff.rfl
  | cons c l ih => exact (hlog (g c) _).trans ih

/-! ## Pre- and postconditions -/

/-- What is asked of a family of questions: which questions are asked, which
answers they have, which events and which faults are allowed. -/
structure Contract (Q A E F : Type) where
  pre : Q → Prop
  post : Q → A → Prop
  event : E → Prop
  fault : F → Prop

/-- Every run of the tree whose events are allowed asks only questions with the
precondition, stops only in an allowed fault and returns a value with `P`. -/
def Sat (S : Contract Q A E F) (P : α → Prop) : CallTree Q A E F α → Prop
  | ret a => P a
  | fault f => S.fault f
  | log e t => S.event e → t.Sat S P
  | call q k => S.pre q ∧ ∀ a, S.post q a → (k a).Sat S P

variable {S : Contract Q A E F} {P : α → Prop}

@[simp] theorem sat_ret {a : α} : (ret a : CallTree Q A E F α).Sat S P ↔ P a := Iff.rfl

variable {t : CallTree Q A E F α} {es : List E}

theorem Sat.mono {P' : α → Prop} (hP : ∀ a, P a → P' a) (h : t.Sat S P) : t.Sat S P' := by
  induction t with
  | ret a => exact hP a h
  | fault f => exact h
  | log e t ih => exact fun he => ih (h he)
  | call q k ih => exact ⟨h.1, fun a ha => ih a (h.2 a ha)⟩

theorem sat_bind {t : CallTree Q A E F β} {f : β → CallTree Q A E F α} :
    (t >>= f).Sat S P ↔ t.Sat S fun b => (f b).Sat S P := by
  induction t with
  | ret b => exact Iff.rfl
  | fault x => exact Iff.rfl
  | log e t ih => exact forall_congr' fun _ => ih
  | call q k ih => exact and_congr_right' (forall_congr' fun a => forall_congr' fun _ => ih a)

theorem Sat.bind {R : β → Prop} {t : CallTree Q A E F β} {f : β → CallTree Q A E F α}
    (ht : t.Sat S R) (hf : ∀ b, R b → (f b).Sat S P) : (t >>= f).Sat S P :=
  sat_bind.2 (ht.mono hf)

theorem sat_forM_report {l : List β} {g : β → E} {f : Unit → CallTree Q A E F α} :
    ((l.forM fun b => report (g b)) >>= f).Sat S P ↔
      ((∀ b ∈ l, S.event (g b)) → (f ()).Sat S P) := by
  induction l with
  | nil =>
    change (f ()).Sat S P ↔ _
    simp
  | cons b l ih =>
    change (S.event (g b) → ((l.forM fun b => report (g b)) >>= f).Sat S P) ↔ _
    rw [ih]
    simp

theorem sat_of_allowed (hpre : ∀ q, S.pre q) (hfault : ∀ f, S.fault f) (t : CallTree Q A E F α) :
    t.Sat S fun _ => True := by
  induction t with
  | ret a => trivial
  | fault f => exact hfault f
  | log e t ih => exact fun _ => ih
  | call q k ih => exact ⟨hpre q, fun a _ => ih a⟩

theorem sat_trivial (t : CallTree Q A E F α) :
    t.Sat ⟨fun _ => True, fun _ _ => True, fun _ => True, fun _ => True⟩ fun _ => True :=
  sat_of_allowed (fun _ => trivial) (fun _ => trivial) t

theorem Sat.and {S' : Contract Q A E F} {P' : α → Prop} (h : t.Sat S P) (h' : t.Sat S' P')
    (hev : ∀ e, S.event e → S'.event e) (hpost : ∀ q a, S.post q a → S'.post q a) :
    t.Sat S fun a => P a ∧ P' a := by
  induction t with
  | ret a => exact ⟨h, h'⟩
  | fault f => exact h
  | log e t ih => exact fun he => ih (h he) (h' (hev e he))
  | call q k ih => exact ⟨h.1, fun a ha => ih a (h.2 a ha) (h'.2 a (hpost q a ha))⟩

theorem Sat.and_pre {S' : Contract Q A E F} {P' : α → Prop} (h : t.Sat S P) (h' : t.Sat S' P')
    (hev : ∀ e, S.event e → S'.event e) (hpost : ∀ q a, S.post q a → S'.post q a) :
    t.Sat { S with pre := fun q => S.pre q ∧ S'.pre q } P := by
  induction t with
  | ret a => exact h
  | fault f => exact h
  | log e t ih => exact fun he => ih (h he) (h' (hev e he))
  | call q k ih => exact ⟨⟨h.1, h'.1⟩, fun a ha => ih a (h.2 a ha) (h'.2 a (hpost q a ha))⟩

def Keeps (S : Contract Q A E F) (body : Q → CallTree Q A E F A) : Prop :=
  ∀ q, S.pre q → (body q).Sat S (S.post q)

theorem Sat.of_run {n : Nat}
    (hlevel : ∀ q, S.pre q → ∀ es a, level body n q = (es, .ok a) → (∀ e ∈ es, S.event e) →
      S.post q a)
    (h : t.Sat S P) {a : α} (hrun : t.run (level body n) = (es, .ok a))
    (hes : ∀ e ∈ es, S.event e) : P a := by
  induction t generalizing es with
  | ret b =>
    cases hrun
    exact h
  | fault f => cases hrun
  | log e t ih =>
    obtain ⟨es', rfl, hr⟩ := run_log.1 hrun
    obtain ⟨he, hes⟩ := List.forall_mem_cons.1 hes
    exact ih (h he) hr hes
  | call q k ih =>
    obtain ⟨es₁, b, es₂, hl, hr, rfl⟩ := run_call.1 hrun
    obtain ⟨hes₁, hes₂⟩ := List.forall_mem_append.1 hes
    exact ih b (h.2 b (hlevel q h.1 es₁ b hl hes₁)) hr hes₂

theorem level_post (hbody : Keeps S body) {n : Nat} {q : Q} (hq : S.pre q) {a : A}
    (h : level body n q = (es, .ok a)) (hes : ∀ e ∈ es, S.event e) : S.post q a := by
  induction n generalizing q es a with
  | zero => cases h
  | succ n ih => exact (hbody q hq).of_run (fun q' hq' _ _ h' hes' => ih hq' h' hes') h hes

/-- A value returned by a tree satisfies the tree's postcondition. -/
theorem Sat.sound (hbody : Keeps S body) (ht : t.Sat S P) {a : α} (h : Yields body t es a)
    (hes : ∀ e ∈ es, S.event e) : P a := by
  obtain ⟨n, hn⟩ := h
  exact ht.of_run (fun q hq _ _ h' hes' => level_post hbody hq h' hes') hn hes

theorem Keeps.post (hbody : Keeps S body) {q : Q} (hq : S.pre q) {a : A} (h : Answers body q es a)
    (hes : ∀ e ∈ es, S.event e) : S.post q a :=
  (hbody q hq).sound hbody h hes

theorem Sat.fault_of_run {n : Nat} (hbody : Keeps S body) (hev : ∀ e, S.event e)
    (hlevel : ∀ q, S.pre q → ∀ es f, level body n q = (es, .fault f) → S.fault f) (ht : t.Sat S P)
    {f : F} (hrun : t.run (level body n) = (es, .fault f)) : S.fault f := by
  induction t generalizing es with
  | ret a => cases hrun
  | fault f' =>
    cases hrun
    exact ht
  | log e t ih =>
    obtain ⟨es', -, hr⟩ := run_log.1 hrun
    exact ih (ht (hev e)) hr
  | call q k ih =>
    rcases hq : level body n q with ⟨es₁, b | f' | _⟩
    · rcases hr : (k b).run (level body n) with ⟨es₂, o⟩
      simp only [run, hq, hr, Prod.mk.injEq] at hrun
      obtain ⟨-, rfl⟩ := hrun
      exact ih b (ht.2 b (level_post hbody ht.1 hq fun e _ => hev e)) hr
    · simp only [run, hq, Prod.mk.injEq, Outcome.fault.injEq] at hrun
      exact hlevel q ht.1 es₁ f (by rw [hq, hrun.2])
    · simp [run, hq] at hrun

theorem Sat.sound_fault (hbody : Keeps S body) (hev : ∀ e, S.event e) (ht : t.Sat S P) {n : Nat}
    {f : F} (h : t.run (level body n) = (es, .fault f)) : S.fault f := by
  refine ht.fault_of_run hbody hev ?_ h
  clear h
  induction n with
  | zero =>
    intro q _ es f h
    cases h
  | succ n ih => exact fun q hq es f h => (hbody q hq).fault_of_run hbody hev ih h

/-- If every question with the precondition has an answer with the postcondition
and no fault is allowed, a run returns a value with `P`. -/
theorem Sat.exists_run (hf : ∀ f, ¬ S.fault f) (hev : ∀ e, S.event e)
    {answer : Q → List E × Outcome F A}
    (hanswer : ∀ q, S.pre q → ∃ es a, answer q = (es, .ok a) ∧ S.post q a) (ht : t.Sat S P) :
    ∃ es a, t.run answer = (es, .ok a) ∧ P a := by
  induction t with
  | ret a => exact ⟨[], a, rfl, ht⟩
  | fault f => exact absurd ht (hf f)
  | log e t ih =>
    obtain ⟨es, a, hrun, ha⟩ := ih (ht (hev e))
    exact ⟨e :: es, a, by simp only [run, hrun], ha⟩
  | call q k ih =>
    obtain ⟨es₁, b, hq, hb⟩ := hanswer q ht.1
    obtain ⟨es₂, a, hrun, ha⟩ := ih b (ht.2 b hb)
    exact ⟨es₁ ++ es₂, a, by simp only [run, hq, hrun], ha⟩

/-- The same for the value of a tree, whose questions are answered by a body. -/
theorem Sat.exists_yields (hf : ∀ f, ¬ S.fault f) (hev : ∀ e, S.event e)
    (hanswer : ∀ q, S.pre q → ∃ es a, Answers body q es a ∧ S.post q a) (ht : t.Sat S P) :
    ∃ es a, Yields body t es a ∧ P a := by
  induction t with
  | ret a => exact ⟨[], a, yields_ret.2 ⟨rfl, rfl⟩, ht⟩
  | fault f => exact absurd ht (hf f)
  | log e t ih =>
    obtain ⟨es, a, hrun, ha⟩ := ih (ht (hev e))
    exact ⟨e :: es, a, yields_log.2 ⟨es, rfl, hrun⟩, ha⟩
  | call q k ih =>
    obtain ⟨es₁, b, hq, hb⟩ := hanswer q ht.1
    obtain ⟨es₂, a, hrun, ha⟩ := ih b (ht.2 b hb)
    exact ⟨es₁ ++ es₂, a, yields_call.2 ⟨es₁, b, es₂, hq, hrun, rfl⟩, ha⟩

/-- The contract whose answers are those that the bodies give. -/
def Contract.answered (S : Contract Q A E F) (body : Q → CallTree Q A E F A) :
    Contract Q A E F :=
  { S with post := fun q a => S.post q a ∧ ∃ es, Answers body q es a }

/-- In a postcondition the answers may be taken for those of the bodies. -/
theorem answered_post (S : Contract Q A E F)
    (hbody : ∀ q, S.pre q → (body q).Sat (S.answered body) (S.post q)) {q : Q} (hq : S.pre q)
    {a : A} (h : Answers body q es a) (hes : ∀ e ∈ es, S.event e) : S.post q a := by
  have hlevel : ∀ n q, S.pre q → ∀ es a, level body n q = (es, .ok a) → (∀ e ∈ es, S.event e) →
      (S.answered body).post q a := by
    intro n
    induction n with
    | zero =>
      intro q _ es a h
      cases h
    | succ n ih => exact fun q hq es a h hes => ⟨(hbody q hq).of_run ih h hes, es, n, h⟩
  obtain ⟨n, hn⟩ := h
  exact (hbody q hq).of_run (hlevel n) hn hes

theorem sat_answered_yields (S : Contract Q A E F) (body : Q → CallTree Q A E F A)
    (hpre : ∀ q, S.pre q) (hfault : ∀ f, S.fault f) (t : CallTree Q A E F α) :
    t.Sat (S.answered body) fun a => ∃ es, Yields body t es a := by
  induction t with
  | ret a => exact ⟨[], yields_ret.2 ⟨rfl, rfl⟩⟩
  | fault f => exact hfault f
  | log e t ih =>
    exact fun _ => ih.mono fun a ⟨es, h⟩ => ⟨e :: es, yields_log.2 ⟨es, rfl, h⟩⟩
  | call q k ih =>
    refine ⟨hpre q, fun b ⟨_, es₁, hb⟩ => (ih b).mono fun a ⟨es₂, h⟩ => ?_⟩
    exact ⟨es₁ ++ es₂, yields_call.2 ⟨es₁, b, es₂, hb, h, rfl⟩⟩

/-! ## Corresponding runs -/

section Follows

variable (ev : E → Prop) (rq : Q → Q → Prop) (ra : Q → Q → A → A → Prop)

/-- Every run of the first tree whose events are allowed is followed by a run of
the second one: the questions correspond by `rq`, and as long as the answers
correspond by `ra`, so do the results by `r`. -/
inductive Follows (r : α → β → Prop) : CallTree Q A E F α → CallTree Q A E F β → Prop
  | ret {a : α} {b : β} : r a b → Follows r (ret a) (ret b)
  | fault {f : F} {t : CallTree Q A E F β} : Follows r (fault f) t
  | logLeft {e : E} {t : CallTree Q A E F α} {t' : CallTree Q A E F β} :
      (ev e → Follows r t t') → Follows r (log e t) t'
  | logRight {e : E} {t : CallTree Q A E F α} {t' : CallTree Q A E F β} :
      Follows r t t' → Follows r t (log e t')
  | call {q q' : Q} {k : A → CallTree Q A E F α} {k' : A → CallTree Q A E F β} :
      rq q q' → (∀ a a', ra q q' a a' → Follows r (k a) (k' a')) →
      Follows r (call q k) (call q' k')

variable {ev rq ra}

variable {t' : CallTree Q A E F β}

theorem Follows.bind {r : α → β → Prop} {s : γ → δ → Prop} {f : α → CallTree Q A E F γ}
    {g : β → CallTree Q A E F δ} (ht : Follows ev rq ra r t t')
    (hf : ∀ a b, r a b → Follows ev rq ra s (f a) (g b)) :
    Follows ev rq ra s (t >>= f) (t' >>= g) := by
  induction ht with
  | ret h => exact hf _ _ h
  | fault => exact .fault
  | logLeft _ ih => exact .logLeft fun he => ih he
  | logRight _ ih => exact .logRight ih
  | call hq _ ih => exact .call hq fun a a' ha => ih a a' ha

/-- A tree follows itself if the questions that it asks correspond to themselves, and have equal
answers, which are those of the bodies. -/
theorem Follows.refl (ha : ∀ q a a', ra q q a a' → a = a' ∧ ∃ es, Answers body q es a)
    {r : α → α → Prop} (t : CallTree Q A E F α) (hq : ∀ q, Asks body t q → rq q q)
    (hr : ∀ es a, Yields body t es a → r a a) : Follows ev rq ra r t t := by
  induction t with
  | ret a => exact .ret (hr [] a (yields_ret.2 ⟨rfl, rfl⟩))
  | fault f => exact .fault
  | log e t ih =>
    exact .logLeft fun _ => .logRight (ih (fun q hasks => hq q (.log hasks)) fun es a h =>
      hr (e :: es) a (yields_log.2 ⟨es, rfl, h⟩))
  | call q k ih =>
    refine .call (hq q .here) fun a a' h => ?_
    obtain ⟨rfl, es, hanswer⟩ := ha q a a' h
    exact ih a (fun q' hasks => hq q' (.next hanswer hasks)) fun es' b h =>
      hr (es ++ es') b (yields_call.2 ⟨es, a, es', hanswer, h, rfl⟩)

theorem Follows.forM_left {r : α → β → Prop} {l : List γ} {g : γ → E}
    {f : Unit → CallTree Q A E F α} {t : CallTree Q A E F β}
    (h : (∀ c ∈ l, ev (g c)) → Follows ev rq ra r (f ()) t) :
    Follows ev rq ra r ((l.forM fun c => report (g c)) >>= f) t := by
  induction l with
  | nil => exact h fun c hc => absurd hc List.not_mem_nil
  | cons c l ih =>
    refine .logLeft fun hc => ih fun hl => h fun b hb => ?_
    rcases List.mem_cons.1 hb with rfl | hb
    · exact hc
    · exact hl b hb

theorem Follows.forM_right {r : α → β → Prop} {l : List γ} {g : γ → E}
    {f : Unit → CallTree Q A E F β} (h : Follows ev rq ra r t (f ())) :
    Follows ev rq ra r t ((l.forM fun c => report (g c)) >>= f) := by
  induction l with
  | nil => exact h
  | cons c l ih => exact .logRight ih

theorem Follows.of_run {body' : Q → CallTree Q A E F A} {n : Nat}
    (hlevel : ∀ q q', rq q q' → ∀ es a, level body n q = (es, .ok a) → (∀ e ∈ es, ev e) → ∃ es' a',
      Answers body' q' es' a' ∧ ra q q' a a')
    {r : α → β → Prop} (h : Follows ev rq ra r t t') {es : List E} {a : α}
    (hrun : t.run (level body n) = (es, .ok a)) (hes : ∀ e ∈ es, ev e) :
    ∃ es' b, Yields body' t' es' b ∧ r a b := by
  induction h generalizing es with
  | @ret a b h =>
    cases hrun
    exact ⟨[], b, yields_ret.2 ⟨rfl, rfl⟩, h⟩
  | fault => cases hrun
  | logLeft _ ih =>
    obtain ⟨es', rfl, hr⟩ := run_log.1 hrun
    obtain ⟨he, hes⟩ := List.forall_mem_cons.1 hes
    exact ih he hr hes
  | @logRight e t t' _ ih =>
    obtain ⟨es', b, hb, hr⟩ := ih hrun hes
    exact ⟨e :: es', b, yields_log.2 ⟨es', rfl, hb⟩, hr⟩
  | call hq _ ih =>
    obtain ⟨es₁, c, es₂, hl, hr, rfl⟩ := run_call.1 hrun
    obtain ⟨hes₁, hes₂⟩ := List.forall_mem_append.1 hes
    obtain ⟨es₁', c', hc', hcc'⟩ := hlevel _ _ hq es₁ c hl hes₁
    obtain ⟨es₂', b, hb, hab⟩ := ih c c' hcc' hr hes₂
    exact ⟨es₁' ++ es₂', b, yields_call.2 ⟨es₁', c', es₂', hc', hb, rfl⟩, hab⟩

/-- If the bodies follow each other on corresponding questions, a result of the
first tree whose events are allowed has a corresponding result of the second. In the relation of
the answers, the first one may be taken for that of the body. -/
theorem Follows.sound {body' : Q → CallTree Q A E F A}
    (hbody : ∀ q q', rq q q' → Follows ev rq (fun q q' a a' => ra q q' a a' ∧
      ∃ es, Answers body q es a) (ra q q') (body q) (body' q')) {q q' : Q} (hq : rq q q')
    {es : List E} {a : A} (h : Answers body q es a) (hes : ∀ e ∈ es, ev e) :
    ∃ es' a', Answers body' q' es' a' ∧ ra q q' a a' := by
  have hlevel : ∀ n q q', rq q q' → ∀ es a, level body n q = (es, .ok a) → (∀ e ∈ es, ev e) →
      ∃ es' a', Answers body' q' es' a' ∧ ra q q' a a' ∧ ∃ es, Answers body q es a := by
    intro n
    induction n with
    | zero => exact fun q q' _ es a h => (nomatch h)
    | succ n ih =>
      intro q q' hq es a h hes
      obtain ⟨es', a', ha', hanswer⟩ := (hbody q q' hq).of_run ih h hes
      exact ⟨es', a', ha', hanswer, es, n, h⟩
  obtain ⟨n, hn⟩ := h
  exact (hbody q q' hq).of_run (hlevel n) hn hes

end Follows

/-! ## What follows an answer -/

/-- The tree asks `q`, is answered with `a` and goes on as another tree, given the answers to
the questions before. -/
inductive GoesOn (body : Q → CallTree Q A E F A) :
    CallTree Q A E F α → Q → A → CallTree Q A E F α → Prop
  | here {q : Q} {k : A → CallTree Q A E F α} {es : List E} {a : A} :
      Answers body q es a → GoesOn body (call q k) q a (k a)
  | log {e : E} {t t' : CallTree Q A E F α} {q : Q} {a : A} :
      GoesOn body t q a t' → GoesOn body (log e t) q a t'
  | next {q q' : Q} {k : A → CallTree Q A E F α} {t' : CallTree Q A E F α} {es : List E}
      {a a' : A} : Answers body q es a → GoesOn body (k a) q' a' t' →
      GoesOn body (call q k) q' a' t'

theorem GoesOn.answers {t t' : CallTree Q A E F α} {q : Q} {a : A}
    (hgoes : GoesOn body t q a t') : ∃ es, Answers body q es a := by
  induction hgoes with
  | here h => exact ⟨_, h⟩
  | log _ ih => exact ih
  | next _ _ ih => exact ih

theorem GoesOn.yields {t t' : CallTree Q A E F α} {q : Q} {a : A} {b : α} {es : List E}
    (hgoes : GoesOn body t q a t') (h : Yields body t' es b) : ∃ es', Yields body t es' b := by
  induction hgoes generalizing es with
  | here hq => exact ⟨_, yields_call.2 ⟨_, _, _, hq, h, rfl⟩⟩
  | log _ ih =>
    obtain ⟨es', h⟩ := ih h
    exact ⟨_, yields_log.2 ⟨es', rfl, h⟩⟩
  | next hq _ ih =>
    obtain ⟨es', h⟩ := ih h
    exact ⟨_, yields_call.2 ⟨_, _, es', hq, h, rfl⟩⟩

end CallTree
