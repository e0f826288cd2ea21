import TsaBackend.Phases

/-!
Calls that read first and write last, and never check in between: of those that read the same
value before either wrote, how many write?

A version counts the writes. What is observed changes only with the version, and a call that
ends well raises it with its last step.
-/

namespace TsaBackend.Call

variable {σ ι ε α β γ : Type}

/-- A step that leaves the version and what is observed. -/
def Quiet (ver : σ → ℕ) (obs : σ → γ) (s t : σ) : Prop := ver t = ver s ∧ obs t = obs s

/-- The call takes quiet steps until it throws, or raises the version and returns. -/
def Commits (ver : σ → ℕ) (obs : σ → γ) : Call σ ι ε α → Prop
  | .pure _ => False
  | .throw _ => True
  | .act eff next => ∀ i s, Quiet ver obs s (eff i s) ∧ (next i s).Commits ver obs ∨
      ver s < ver (eff i s) ∧ (next i s).returned = true

variable {ver : σ → ℕ} {obs : σ → γ}

lemma quiet_refl (s : σ) : Quiet ver obs s s := ⟨rfl, rfl⟩

lemma commits_throw (e : ε) : (MonadExcept.throw e : Call σ ι ε α).Commits ver obs := trivial

lemma Commits.not_returned {c : Call σ ι ε α} (h : c.Commits ver obs) : c.returned = false := by
  cases c with
  | pure a => exact h.elim
  | throw e => rfl
  | act eff next => rfl

lemma Steps.commits_bind {c : Call σ ι ε α} {f : α → Call σ ι ε β} (h : c.Steps (Quiet ver obs))
    (hf : ∀ a, (f a).Commits ver obs) : (c >>= f).Commits ver obs := by
  induction c with
  | pure a => exact hf a
  | throw e => trivial
  | act eff next ih =>
    intro i s
    obtain ⟨hstep, hrest⟩ := steps_act.mp h i s
    exact .inl ⟨hstep, ih i s hrest⟩

lemma commits_atomic {f : ι → σ → Except ε (α × σ)} {b : β}
    (hf : ∀ i s a t, f i s = .ok (a, t) → ver s < ver t) :
    (atomic f >>= fun _ => (Pure.pure b : Call σ ι ε β)).Commits ver obs := by
  intro i s
  rcases hfs : f i s with e | ⟨a, t⟩
  · exact .inl (by simpa only [hfs] using ⟨quiet_refl s, trivial⟩)
  · exact .inr (by simpa only [hfs] using ⟨hf i s a t hfs, rfl⟩)

/-- The calls that have not returned can still commit. -/
def Committing (ver : σ → ℕ) (obs : σ → γ) (x : σ × List (Call σ ι ε α)) : Prop :=
  ∀ (k : ℕ) (c : Call σ ι ε α), x.2[k]? = some c → c.Commits ver obs ∨ c.returned = true

/-- A step of a pool is quiet, or a call commits with it and returns. -/
lemma Committing.step {x : σ × List (Call σ ι ε α)} (h : Committing ver obs x) (e : ℕ × ι) :
    Committing ver obs (poolStep x e) ∧ (Quiet ver obs x.1 (poolStep x e).1 ∧
        (∀ k, Returned (poolStep x e) k → Returned x k) ∨
      ver x.1 < ver (poolStep x e).1 ∧ ¬ Returned x e.1 ∧ Returned (poolStep x e) e.1) := by
  rcases poolStep_cases x e with ⟨-, hstay⟩ | ⟨eff, next, hact, hstep⟩
  · rw [hstay]
    exact ⟨h, .inl ⟨quiet_refl _, fun _ => id⟩⟩
  rcases h _ _ hact with hcommits | hret
  swap
  · cases hret
  have hself : (x.2.set e.1 (next e.2 x.1))[e.1]? = some (next e.2 x.1) := getElem?_set_self hact
  have hkeep : Committing ver obs (poolStep x e) ↔
      (next e.2 x.1).Commits ver obs ∨ (next e.2 x.1).returned = true := by
    rw [hstep]
    refine ⟨fun hx => hx _ _ hself, fun hnext k c hc => ?_⟩
    by_cases hk : k = e.1
    · subst hk
      rw [hself, Option.some.injEq] at hc
      rwa [← hc]
    · rw [getElem?_set_of_ne hk] at hc
      exact h k c hc
  rcases hcommits e.2 x.1 with ⟨hquiet, hnext⟩ | ⟨hver, hnext⟩
  · refine ⟨hkeep.mpr (.inl hnext), .inl ⟨by rwa [hstep], fun k hk => ?_⟩⟩
    by_cases hke : k = e.1
    · -- a call that can still commit has not returned
      subst hke
      rw [returned_iff, hstep, hself] at hk
      obtain ⟨a, ha⟩ := hk
      rw [Option.some.inj ha] at hnext
      exact hnext.elim
    · rw [returned_iff] at hk ⊢
      rwa [poolStep_other hke] at hk
  · refine ⟨hkeep.mpr (.inr hnext), .inr ⟨by rwa [hstep], fun hret => ?_, ?_⟩⟩
    · obtain ⟨a, ha⟩ := returned_iff.mp hret
      rw [hact] at ha
      cases ha
    · rw [Returned, hstep, hself]
      exact hnext

/-! ### Runs of a pool -/

section Runs

variable {s : σ} {cs : List (Call σ ι ε α)} {sched : List (ℕ × ι)} {j k m n : ℕ}

lemma committing_before (hcs : Committing ver obs (s, cs)) (hn : n ≤ sched.length) :
    Committing ver obs (before s cs sched n) :=
  before_inv (fun _ x => Committing ver obs x) hcs (fun _ e _ h => (h.step e).1) n hn

/-- A step at a position: quiet, or one that finishes its call and raises the version. -/
lemma quiet_or_finishes {e : ℕ × ι} (hcs : Committing ver obs (s, cs))
    (he : sched[n]? = some e) :
    Quiet ver obs (before s cs sched n).1 (before s cs sched (n + 1)).1 ∧
        (∀ k, ¬ Finishes s cs sched k n) ∨
      ver (before s cs sched n).1 < ver (before s cs sched (n + 1)).1 ∧
        Finishes s cs sched e.1 n := by
  have hlt : n < sched.length := (List.getElem?_eq_some_iff.mp he).1
  rw [before_succ he]
  rcases ((committing_before hcs hlt.le).step e).2 with ⟨hquiet, hret⟩ | ⟨hver, hnot, hret⟩
  · refine .inl ⟨hquiet, fun k hk => hk.2.1 (hret k ?_)⟩
    have hafter := hk.2.2
    rwa [before_succ he] at hafter
  · exact .inr ⟨hver, ⟨e.2, he⟩, hnot, by rwa [before_succ he]⟩

lemma Finishes.ver_lt (hcs : Committing ver obs (s, cs)) (h : Finishes s cs sched k n) :
    ver (before s cs sched n).1 < ver (before s cs sched (n + 1)).1 := by
  obtain ⟨i, hi⟩ := h.1
  rcases quiet_or_finishes hcs hi with ⟨-, hnone⟩ | ⟨hver, -⟩
  · exact absurd h (hnone k)
  · exact hver

lemma ver_mono (hcs : Committing ver obs (s, cs)) (h : m ≤ n) (hn : n ≤ sched.length) :
    ver (before s cs sched m).1 ≤ ver (before s cs sched n).1 := by
  induction n, h using Nat.le_induction with
  | base => exact le_rfl
  | succ n hmn ih =>
    have hget : sched[n]? = some sched[n] := List.getElem?_eq_getElem (by omega)
    have hle : ver (before s cs sched n).1 ≤ ver (before s cs sched (n + 1)).1 := by
      rcases quiet_or_finishes hcs hget with ⟨hquiet, -⟩ | ⟨hver, -⟩
      · exact hquiet.1.ge
      · exact hver.le
    exact (ih (by omega)).trans hle

/-- Between two positions nothing changes, or there is a first call that finishes. -/
lemma first_finish (hcs : Committing ver obs (s, cs)) (h : m ≤ n) (hn : n ≤ sched.length) :
    Quiet ver obs (before s cs sched m).1 (before s cs sched n).1 ∨
      ∃ p j, m ≤ p ∧ p < n ∧ Quiet ver obs (before s cs sched m).1 (before s cs sched p).1 ∧
        Finishes s cs sched j p := by
  induction n, h using Nat.le_induction with
  | base => exact .inl (quiet_refl _)
  | succ n hmn ih =>
    have hget : sched[n]? = some sched[n] := List.getElem?_eq_getElem (by omega)
    rcases ih (by omega) with hquiet | ⟨p, j, hmp, hpn, hquiet, hfin⟩
    · rcases quiet_or_finishes hcs hget with ⟨hstep, -⟩ | ⟨-, hfin⟩
      · exact .inl ⟨hstep.1.trans hquiet.1, hstep.2.trans hquiet.2⟩
      · exact .inr ⟨n, _, hmn, by omega, hquiet, hfin⟩
    · exact .inr ⟨p, j, hmp, by omega, hquiet, hfin⟩

lemma obs_of_ver (hcs : Committing ver obs (s, cs)) (h : m ≤ n) (hn : n ≤ sched.length)
    (hver : ver (before s cs sched n).1 = ver (before s cs sched m).1) :
    obs (before s cs sched n).1 = obs (before s cs sched m).1 := by
  rcases first_finish hcs h hn with hquiet | ⟨p, j, hmp, hpn, hquiet, hfin⟩
  · exact hquiet.2
  · have hup := hfin.ver_lt hcs
    have hle := ver_mono hcs (m := p + 1) (n := n) (by omega) hn
    have hp := hquiet.1
    omega

variable (s cs sched) in
/-- Of two calls that read the same before either has finished, at most one finishes. -/
def OneWinner (obs : σ → γ) : Prop :=
  ∀ j k mj mk nj nk, j ≠ k → Takes s cs sched j 0 mj → Takes s cs sched k 0 mk →
    Finishes s cs sched j nj → Finishes s cs sched k nk → mj < nk → mk < nj →
    obs (before s cs sched mj).1 ≠ obs (before s cs sched mk).1

variable (s cs sched) in
/-- A call that finishes does so at the version it has read. -/
def Undisturbed (ver : σ → ℕ) : Prop :=
  ∀ k m n, Takes s cs sched k 0 m → Finishes s cs sched k n →
    ver (before s cs sched n).1 = ver (before s cs sched m).1

/-- Without a disturbance the earlier one of two calls is the only one. -/
lemma Undisturbed.one_winner (hcs : Committing ver obs (s, cs))
    (h : Undisturbed s cs sched ver) : OneWinner s cs sched obs := by
  intro j k mj mk nj nk hjk hmj hmk hnj hnk hjlt hklt _
  -- the later one writes after the earlier one has raised the version
  have later : ∀ {j k mk nj nk}, Takes s cs sched k 0 mk → Finishes s cs sched j nj →
      Finishes s cs sched k nk → mk < nj → nj < nk → False := by
    intro j k mk nj nk hmk hnj hnk hklt hlt
    have hsame := h k mk nk hmk hnk
    have hup := hnj.ver_lt hcs
    have hbefore := ver_mono hcs hklt.le hnj.lt.le
    have hafter := ver_mono hcs (m := nj + 1) (n := nk) (by omega) hnk.lt.le
    omega
  rcases Nat.lt_trichotomy nj nk with hlt | heq | hlt
  · exact later hmk hnj hnk hklt hlt
  · obtain ⟨i, hi⟩ := hnj.1
    obtain ⟨i', hi'⟩ := hnk.1
    rw [heq, hi', Option.some.injEq, Prod.mk.injEq] at hi
    exact hjk hi.1.symm
  · exact later hmj hnk hnj hjlt hlt

/-- **Winners that read first and write last**: among calls that read the same before either
wrote at most one finishes, just when every call that finishes writes at the version it read. -/
theorem one_winner_iff (hcs : ∀ c ∈ cs, c.Commits ver obs) :
    OneWinner s cs sched obs ↔ Undisturbed s cs sched ver := by
  have hinit : Committing ver obs (s, cs) := fun k c hc => .inl (hcs c (List.mem_of_getElem? hc))
  refine ⟨fun h => ?_, Undisturbed.one_winner hinit⟩
  have key : ∀ n k m, Takes s cs sched k 0 m → Finishes s cs sched k n →
      ver (before s cs sched n).1 = ver (before s cs sched m).1 := by
    intro n
    -- the first stale write comes after a fresh one that read the same
    induction n using Nat.strong_induction_on with
    | _ n ih =>
      intro k m hm hn
      by_contra hstale
      obtain ⟨i, hi⟩ := hn.1
      have hmn : m ≤ n := by
        obtain ⟨_, hzero, -⟩ := hm
        by_contra hlt
        have := turnsOf_lt hi (Nat.lt_of_not_le hlt)
        omega
      rcases first_finish hinit hmn hn.lt.le with hquiet | ⟨p, j, hmp, hpn, hquiet, hfin⟩
      · exact hstale hquiet.1
      have hjk : j ≠ k := by
        rintro rfl
        exact hpn.ne (hfin.unique hn)
      have hmp' : m < p := by
        refine lt_of_le_of_ne hmp ?_
        rintro rfl
        obtain ⟨⟨i, hi⟩, -⟩ := hm
        obtain ⟨i', hi'⟩ := hfin.1
        rw [hi, Option.some.injEq, Prod.mk.injEq] at hi'
        exact hjk hi'.1.symm
      obtain ⟨mj, hmjp, hmj⟩ := hfin.takes_first fun c hc => (hcs c hc).not_returned
      have hfresh := ih p hpn j mj hmj hfin
      have hread := obs_of_ver hinit hmjp hfin.lt.le hfresh
      refine h j k mj m p n hjk hmj hm hfin hn (by omega) hmp' ?_
      exact hread.symm.trans hquiet.2
  exact fun k m n => key n k m

end Runs

end TsaBackend.Call
