import Stencil.Scope
/-!
# Occupancy — scopes, their live guards and what an observer has seen

A scope holds no list of its guards, only whether it is active.  In every state that operations lead to, a scope is active
exactly when one guard of it is live, and it never has two (`Sound`); the observer has seen as many more entries than exits
as guards are live (`living_run`); and a guard keeps its context until it is dropped (`guards_run`).  From these follows
what every operation does (`Answers`) after any sequence of operations (`scopes_protocol`).
-/
namespace Stencil
namespace Scopes

variable {n : Nat}

/-- The live guards of the scopes that `p` picks. -/
def liveCount (p : Fin n → Bool) (s : Scopes n) : Nat := s.guards.countP fun g => g.live && p g.scope

/-- The live guards of one scope. -/
def liveOf (s : Scopes n) (i : Fin n) : Nat := s.liveCount (· == i)

/-- All live guards. -/
def living (s : Scopes n) : Nat := s.liveCount fun _ => true

/-- A scope is active when one guard of it is live, and has no live guard when it is not. -/
def Sound (s : Scopes n) : Prop := ∀ i, s.liveOf i = if s.isActive i then 1 else 0

/-! ## Live guards -/

theorem liveCount_append (p : Fin n → Bool) (active : Vector Bool n) (s : Scopes n) (i : Fin n) (c : Context) :
    liveCount p ⟨active, s.guards ++ [⟨i, c, true⟩]⟩ = s.liveCount p + if p i then 1 else 0 := by
  simp [liveCount, List.countP_append, List.countP_cons]

theorem liveCount_set (p : Fin n → Bool) (active : Vector Bool n) {s : Scopes n} {k : Nat} {g : Guard n}
    (h : s.live? k = some g) :
    liveCount p ⟨active, s.guards.set k { g with live := false }⟩ + (if p g.scope then 1 else 0) = s.liveCount p := by
  obtain ⟨hk, hlive⟩ := (live?_eq_some_iff s k g).1 h
  obtain ⟨hlt, hg⟩ := List.getElem?_eq_some_iff.1 hk
  have hset : liveCount p ⟨active, s.guards.set k { g with live := false }⟩ =
      s.liveCount p - if p g.scope then 1 else 0 := by
    simp [liveCount, List.countP_set hlt, hg, hlive]
  -- the guard that is dropped was counted, so that nothing is cut off at zero
  have hpos : (if p g.scope then 1 else 0) ≤ s.liveCount p := by
    split
    · next hp =>
      exact List.countP_pos_iff.2 ⟨g, List.mem_of_getElem? hk, by simp [hlive, hp]⟩
    · exact Nat.zero_le _
  omega

theorem Sound.liveOf_eq_zero_iff {s : Scopes n} (h : s.Sound) (i : Fin n) : s.liveOf i = 0 ↔ s.isActive i = false := by
  rw [h i]
  cases s.isActive i <;> simp

theorem Sound.active_of_live {s : Scopes n} (h : s.Sound) {k : Nat} {g : Guard n} (hk : s.live? k = some g) :
    s.isActive g.scope = true := by
  have hcount := liveCount_set (· == g.scope) s.active hk
  have hg := h g.scope
  rw [liveOf, ← hcount] at hg
  cases ha : s.isActive g.scope with
  | true => rfl
  | false => simp [ha] at hg

theorem Sound.step {s : Scopes n} (h : s.Sound) (op : Operation n) : (s.step op).after.Sound := by
  cases op with
  | read k => exact h
  | enter i c =>
    show (s.enter i c).after.Sound
    cases ha : s.isActive i with
    | true => rwa [enter_of_active ha]
    | false =>
      rw [enter_of_inactive ha]
      intro j
      have hj := h j
      rw [liveOf, liveCount_append, ← liveOf, hj]
      by_cases hij : i = j
      · subst hij
        simp [ha]
      · have : (i == j) = false := by simpa using hij
        simp [this, isActive_set_of_ne s _ (Ne.symm hij)]
  | drop k =>
    show (s.drop k).after.Sound
    cases hk : s.live? k with
    | none => rwa [drop_of_none hk]
    | some g =>
      rw [drop_of_live hk]
      intro j
      have hj := h j
      have hcount := liveCount_set (· == j) (s.active.set g.scope false) hk
      rw [liveOf] at hj ⊢
      by_cases hgj : g.scope = j
      · subst hgj
        have ha := h.active_of_live hk
        simp [ha] at hj hcount ⊢
        omega
      · have : (g.scope == j) = false := by simpa using hgj
        simp [this] at hcount
        simp [hcount, hj, isActive_set_of_ne s _ (Ne.symm hgj)]

/-! ## Events -/

def enters (log : List ScopeEvent) : Nat := log.countP fun
  | .entered _ => true
  | .exited => false

def exits (log : List ScopeEvent) : Nat := log.countP fun
  | .entered _ => false
  | .exited => true

theorem enters_append (log log' : List ScopeEvent) : enters (log ++ log') = enters log + enters log' :=
  List.countP_append

theorem exits_append (log log' : List ScopeEvent) : exits (log ++ log') = exits log + exits log' :=
  List.countP_append

/-- **Every operation shows what it does to the number of live guards.** -/
theorem living_step (s : Scopes n) (op : Operation n) :
    enters (s.step op).events + s.living = exits (s.step op).events + (s.step op).after.living := by
  cases op with
  | read k => rfl
  | enter i c =>
    show enters (s.enter i c).events + _ = exits (s.enter i c).events + (s.enter i c).after.living
    cases ha : s.isActive i with
    | true => rw [enter_of_active ha]; rfl
    | false =>
      rw [enter_of_inactive ha]
      have henter : enters [.entered c] = 1 := rfl
      have hexit : exits [.entered c] = 0 := rfl
      have hcount := liveCount_append (fun _ => true) (s.active.set i true) s i c
      rw [if_pos rfl] at hcount
      simp only [henter, hexit, living]
      omega
  | drop k =>
    show enters (s.drop k).events + _ = exits (s.drop k).events + (s.drop k).after.living
    cases hk : s.live? k with
    | none => rw [drop_of_none hk]; rfl
    | some g =>
      rw [drop_of_live hk]
      have henter : enters [.exited] = 0 := rfl
      have hexit : exits [.exited] = 1 := rfl
      have hcount := liveCount_set (fun _ => true) (s.active.set g.scope false) hk
      rw [if_pos rfl] at hcount
      simp only [henter, hexit, living]
      omega

/-! ## Guards -/

theorem guards_step_of_ne {s : Scopes n} {k : Nat} {g : Guard n} (h : s.guards[k]? = some g) {op : Operation n}
    (hop : op ≠ .drop k) : (s.step op).after.guards[k]? = some g := by
  cases op with
  | read l => exact h
  | enter i c =>
    show (s.enter i c).after.guards[k]? = some g
    cases ha : s.isActive i with
    | true => rwa [enter_of_active ha]
    | false =>
      obtain ⟨hlt, -⟩ := List.getElem?_eq_some_iff.1 h
      rw [enter_of_inactive ha]
      exact (List.getElem?_append_left hlt).trans h
  | drop l =>
    show (s.drop l).after.guards[k]? = some g
    cases hl : s.live? l with
    | none => rwa [drop_of_none hl]
    | some g' =>
      have hlk : l ≠ k := by
        rintro rfl
        exact hop rfl
      rw [drop_of_live hl]
      exact (List.getElem?_set_ne hlk).trans h

theorem guards_step_drop {s : Scopes n} {k : Nat} {g : Guard n} (h : s.guards[k]? = some g) :
    (s.step (.drop k)).after.guards[k]? = some { g with live := false } := by
  show (s.drop k).after.guards[k]? = _
  obtain ⟨hlt, -⟩ := List.getElem?_eq_some_iff.1 h
  obtain ⟨scope, context, live⟩ := g
  cases live with
  | true =>
    rw [drop_of_live ((live?_eq_some_iff s k _).2 ⟨h, rfl⟩)]
    exact List.getElem?_set_self hlt
  | false =>
    have hnone : s.live? k = none := by
      rw [live?, h]
      rfl
    rw [drop_of_none hnone, h]

/-- **A guard keeps its scope and its context**, and is live until it is dropped. -/
theorem guards_run {k : Nat} (ops : List (Operation n)) {s : Scopes n} {g : Guard n} (h : s.guards[k]? = some g) :
    (s.run ops).2.guards[k]? = some (if .drop k ∈ ops then { g with live := false } else g) := by
  induction ops generalizing s g with
  | nil => exact h
  | cons op ops ih =>
    show ((s.step op).after.run ops).2.guards[k]? = _
    by_cases hop : op = .drop k
    · subst hop
      rw [ih (guards_step_drop h)]
      simp
    · rw [ih (guards_step_of_ne h hop)]
      simp [Ne.symm hop]

/-! ## Runs -/

theorem run_append (s : Scopes n) (ops ops' : List (Operation n)) : s.run (ops ++ ops') =
    ((s.run ops).1 ++ ((s.run ops).2.run ops').1, ((s.run ops).2.run ops').2) := by
  induction ops generalizing s with
  | nil => rfl
  | cons op ops ih => simp only [List.cons_append, run, ih, List.append_assoc]

theorem Sound.run {s : Scopes n} (h : s.Sound) (ops : List (Operation n)) : (s.run ops).2.Sound := by
  induction ops generalizing s with
  | nil => exact h
  | cons op ops ih => exact ih (h.step op)

theorem living_run (s : Scopes n) (ops : List (Operation n)) :
    enters (s.run ops).1 + s.living = exits (s.run ops).1 + (s.run ops).2.living := by
  induction ops generalizing s with
  | nil => rfl
  | cons op ops ih =>
    have hstep := living_step s op
    have hrest := ih (s.step op).after
    show enters ((s.step op).events ++ _) + _ = exits ((s.step op).events ++ _) + ((s.step op).after.run ops).2.living
    rw [enters_append, exits_append]
    omega

theorem length_guards_drop (s : Scopes n) (k : Nat) : (s.drop k).after.guards.length = s.guards.length := by
  cases hk : s.live? k with
  | none => rw [drop_of_none hk]
  | some g =>
    rw [drop_of_live hk]
    exact List.length_set

theorem length_guards_run_drop (ks : List Nat) (s : Scopes n) :
    (s.run (ks.map .drop)).2.guards.length = s.guards.length := by
  induction ks generalizing s with
  | nil => rfl
  | cons k ks ih =>
    show ((s.drop k).after.run (ks.map .drop)).2.guards.length = _
    rw [ih, length_guards_drop]

/-- **Once every guard was dropped, none is live.** -/
theorem living_dropAll (s : Scopes n) : s.dropAll.2.living = 0 := by
  refine List.countP_eq_zero.2 fun g hg => ?_
  obtain ⟨k, hlt, rfl⟩ := List.getElem_of_mem hg
  have hk : k < s.guards.length := by rwa [dropAll, length_guards_run_drop] at hlt
  have hmem : Operation.drop (n := n) k ∈ (List.range s.guards.length).map .drop :=
    List.mem_map.2 ⟨k, List.mem_range.2 hk, rfl⟩
  have hguard := guards_run ((List.range s.guards.length).map .drop) (List.getElem?_eq_getElem hk)
  rw [if_pos hmem] at hguard
  have := (List.getElem?_eq_some_iff.1 hguard).2
  simp only [dropAll, this, Bool.false_and, Bool.false_eq_true, not_false_eq_true]

/-! ## What an operation does -/

/-- **What an operation does**, by the guards that are live before it. -/
inductive Answers (s : Scopes n) : Operation n → Outcome n → Prop
  /-- A scope without a live guard is entered, and no other scope and no guard is changed. -/
  | entered {i : Fin n} {c : Context} {o : Outcome n} : s.liveOf i = 0 → o.reply = .guard s.guards.length →
      o.events = [.entered c] → o.after.guards = s.guards ++ [⟨i, c, true⟩] → o.after.isActive i = true →
      (∀ j : Fin n, j ≠ i → o.after.isActive j = s.isActive j) → Answers s (.enter i c) o
  /-- A scope with a live guard is not entered, and nothing is changed. -/
  | refused {i : Fin n} {c : Context} : s.liveOf i ≠ 0 → Answers s (.enter i c) ⟨.refused .alreadyEntered, [], s⟩
  /-- The drop of a live guard leaves its scope to be entered again, and changes no other scope and no other guard. -/
  | dropped {k : Nat} {g : Guard n} {o : Outcome n} : s.guards[k]? = some g → g.live = true → o.reply = .dropped true →
      o.events = [.exited] → o.after.guards[k]? = some { g with live := false } →
      (∀ l, l ≠ k → o.after.guards[l]? = s.guards[l]?) → o.after.isActive g.scope = false →
      (∀ j : Fin n, j ≠ g.scope → o.after.isActive j = s.isActive j) →
      (∀ c, (o.after.enter g.scope c).reply = .guard o.after.guards.length) → Answers s (.drop k) o
  /-- The drop of a guard that is not live does nothing. -/
  | gone {k : Nat} : s.live? k = none → Answers s (.drop k) ⟨.dropped false, [], s⟩
  | read {k : Nat} : Answers s (.read k) ⟨.context ((s.live? k).map Guard.context), [], s⟩

theorem answers_step {s : Scopes n} (h : s.Sound) (op : Operation n) : Answers s op (s.step op) := by
  cases op with
  | read k => exact .read
  | enter i c =>
    show Answers s _ (s.enter i c)
    cases ha : s.isActive i with
    | true =>
      rw [enter_of_active ha]
      refine .refused fun h0 => ?_
      rw [(h.liveOf_eq_zero_iff i).1 h0] at ha
      cases ha
    | false =>
      rw [enter_of_inactive ha]
      exact .entered ((h.liveOf_eq_zero_iff i).2 ha) rfl rfl rfl (isActive_set_self _ _ i true) fun j hj =>
        isActive_set_of_ne s _ hj true
  | drop k =>
    show Answers s _ (s.drop k)
    cases hk : s.live? k with
    | none =>
      rw [drop_of_none hk]
      exact .gone hk
    | some g =>
      obtain ⟨hg, hlive⟩ := (live?_eq_some_iff s k g).1 hk
      obtain ⟨hlt, -⟩ := List.getElem?_eq_some_iff.1 hg
      rw [drop_of_live hk]
      refine .dropped hg hlive rfl rfl (List.getElem?_set_self hlt) (fun l hl => List.getElem?_set_ne hl.symm)
        (isActive_set_self _ _ g.scope false) (fun j hj => isActive_set_of_ne s _ hj false) fun c => ?_
      rw [enter_of_inactive (isActive_set_self _ _ g.scope false)]

/-- What an observer has seen, and the scopes, after a sequence of operations on scopes that nobody has entered yet. -/
def Reached (log : List ScopeEvent) (s : Scopes n) : Prop := ∃ ops, run {} ops = (log, s)

theorem sound_new : ({} : Scopes n).Sound := by
  intro i
  simp [liveOf, liveCount, isActive]

theorem Reached.sound {log : List ScopeEvent} {s : Scopes n} (h : Reached log s) : s.Sound := by
  obtain ⟨ops, hops⟩ := h
  have hs := sound_new.run ops
  rwa [hops] at hs

theorem Reached.balanced {log : List ScopeEvent} {s : Scopes n} (h : Reached log s) :
    enters log = exits log + s.living := by
  obtain ⟨ops, hops⟩ := h
  have hl := living_run {} ops
  rwa [hops] at hl

theorem Reached.dropAll {log : List ScopeEvent} {s : Scopes n} (h : Reached log s) :
    Reached (log ++ s.dropAll.1) s.dropAll.2 := by
  obtain ⟨ops, hops⟩ := h
  refine ⟨ops ++ (List.range s.guards.length).map .drop, ?_⟩
  rw [run_append, hops]
  rfl

/-- **What a guard reads** after it was handed out: the context of its entry, until it is dropped. -/
theorem read_of_enter {s : Scopes n} {i : Fin n} {c : Context} {number : Nat}
    (h : (s.enter i c).reply = .guard number) (later : List (Operation n)) :
    (((s.enter i c).after.run later).2.read number).reply =
      .context (if .drop number ∈ later then none else some c) := by
  cases ha : s.isActive i with
  | true =>
    rw [enter_of_active ha] at h
    cases h
  | false =>
    rw [enter_of_inactive ha] at h ⊢
    cases h
    have hnew : (s.guards ++ [⟨i, c, true⟩])[s.guards.length]? = some (⟨i, c, true⟩ : Guard n) := by simp
    have hlater := guards_run later (s := ⟨s.active.set i true, s.guards ++ [⟨i, c, true⟩]⟩) hnew
    rw [read, live?, hlater]
    by_cases hd : Operation.drop s.guards.length ∈ later
    · rw [if_pos hd, if_pos hd]
      rfl
    · rw [if_neg hd, if_neg hd]
      rfl

/-- **Scopes and their guards.**  After any sequence of operations a scope is active exactly when one guard of it is live,
and it never has two; every operation does what `Answers` says; a guard reads the context of its entry until it is dropped;
and the observer has seen one entry more than exits for each live guard, so that in the end they are as many. -/
theorem scopes_protocol {log : List ScopeEvent} {s : Scopes n} (h : Reached log s) :
    (∀ i : Fin n, (s.isActive i = true ↔ s.liveOf i = 1) ∧ s.liveOf i ≤ 1) ∧
    (∀ op, Answers s op (s.step op)) ∧
    (∀ i c number, (s.enter i c).reply = .guard number → ∀ later,
      (((s.enter i c).after.run later).2.read number).reply =
        .context (if .drop number ∈ later then none else some c)) ∧
    enters log = exits log + s.living ∧
    enters (log ++ s.dropAll.1) = exits (log ++ s.dropAll.1) ∧ s.dropAll.2.living = 0 := by
  refine ⟨fun i => ?_, answers_step h.sound, fun i c number hi later => read_of_enter hi later, h.balanced, ?_,
    living_dropAll s⟩
  · rw [h.sound i]
    cases s.isActive i <;> simp
  · rw [h.dropAll.balanced, living_dropAll]
    rfl

theorem scopes_protocol_reentered : ∃ (log : List ScopeEvent) (s : Scopes 2), Reached log s ∧
    s.liveOf 0 = 1 ∧ Answers s (.enter 0 ⟨{}, .deferred, none⟩) ⟨.refused .alreadyEntered, [], s⟩ ∧
    enters log = 3 ∧ exits log = 1 ∧ s.living = 2 ∧ enters (log ++ s.dropAll.1) = exits (log ++ s.dropAll.1) := by
  let c : Context := ⟨{}, .deferred, none⟩
  let ops : List (Operation 2) := [.enter 0 c, .enter 0 c, .enter 1 c, .drop 0, .enter 0 c]
  have hreached : Reached (run {} ops).1 (run {} ops).2 := ⟨ops, rfl⟩
  obtain ⟨hactive, hanswers, -, hbalance, hclosed, -⟩ := scopes_protocol hreached
  exact ⟨_, _, hreached, (hactive 0).1.1 rfl, hanswers (.enter 0 c), rfl, rfl, (Nat.add_left_cancel hbalance).symm, hclosed⟩

end Scopes
end Stencil
