import ServiceSim.Proofs.Kernel.Processes

/-!
# Processes that run in order

At one time processes run in the order in which they have been spawned, woken and parked.  For those
of a kind that are neither woken nor spawned during a run this is the order of their identities, as
long as nobody parks until a time for which a later process is parked already (`Turned.inOrder`).
Processes of other kinds may be spawned and woken in between.
-/

namespace ServiceSim.Kernel

variable {World Task : Type} {program : Program World Task} {k k' : Kernel World Task}
variable {id : ProcessId} {a : Task} {p : Task → Prop}

/-- Of processes of a kind, those that run at one time do so in the order of their identities. -/
def InOrder (p : Task → Prop) (k : Kernel World Task) : Prop :=
  k.agenda.Pairwise fun x y => p x.task → p y.task → x.time = y.time → x.process < y.process

/-- The agenda stands in the order of times. -/
lemma Lined.agenda_sorted (lined : k.Lined) : k.agenda.Pairwise (·.time ≤ ·.time) := by
  have hpast : ∀ l : List (ProcessId × Task), (appointed k.now l).Pairwise (·.time ≤ ·.time) :=
    fun l => List.pairwise_map.mpr (List.pairwise_of_forall fun _ _ => le_refl k.now)
  rw [agenda, others, ← List.append_assoc, appointed, appointed, ← List.map_append]
  refine List.pairwise_append.mpr ⟨hpast _, List.pairwise_map.mpr lined.sorted, ?_⟩
  intro x hx y hy
  obtain ⟨q, -, rfl⟩ := List.mem_map.mp hx
  obtain ⟨w, hw, rfl⟩ := List.mem_map.mp hy
  exact le_of_lt (lined.later w hw)

/-- Whoever runs is the first of its kind, by the time and then by the identity. -/
lemma InOrder.first (h : k.InOrder p) (lined : k.Lined) (runs : k.running = some (id, a))
    (ha : p a) {x : Appointment Task} (hx : x ∈ k.others) (hp : p x.task) :
    k.now < x.time ∨ k.now = x.time ∧ id < x.process := by
  have hsorted := lined.agenda_sorted
  rw [InOrder, agenda_running runs, List.pairwise_cons] at h
  rw [agenda_running runs, List.pairwise_cons] at hsorted
  rcases lt_or_eq_of_le (hsorted.1 x hx) with hlt | heq
  · exact .inl hlt
  · exact .inr ⟨heq, h.1 x hx ha hp heq⟩

lemma Quiet.inOrder (h : k.InOrder p) (quiet : Quiet program k k') : k'.InOrder p := by
  rw [InOrder, quiet.agenda]
  exact h

/-- Elements that are related to all others may stand anywhere. -/
lemma pairwise_insert {α : Type} {R : α → α → Prop} {l m r : List α} (h : (l ++ r).Pairwise R)
    (related : ∀ x ∈ m, ∀ y, R x y ∧ R y x) : (l ++ m ++ r).Pairwise R := by
  obtain ⟨hl, hr, hlr⟩ := List.pairwise_append.mp h
  have hm : m.Pairwise R := List.pairwise_iff_forall_sublist.mpr fun {x y} hxy =>
    (related x (hxy.subset List.mem_cons_self) y).1
  refine List.pairwise_append.mpr ⟨List.pairwise_append.mpr ⟨hl, hm, ?_⟩, hr, ?_⟩
  · exact fun x _ y hy => (related y hy x).2
  · intro x hx y hy
    rcases List.mem_append.mp hx with hx | hx
    · exact hlr x hx y hy
    · exact (related x hx y).1

/-- How a process goes on keeps the order of a kind, if the others are in order and the process comes
before those that run now, and behind those that run at the time until which it parks. -/
lemma goOn_inOrder (lined : k.Lined) (id : ProcessId) (next : Next Task)
    (h : k.others.Pairwise fun x y =>
      p x.task → p y.task → x.time = y.time → x.process < y.process)
    (first : ∀ x ∈ next.appointments id k.now, ∀ y ∈ k.others, p x.task → p y.task →
      k.now = y.time → id < y.process)
    (parks : ∀ x ∈ next.appointments id k.now, p x.task → k.now < x.time →
      ∀ y ∈ k.others, p y.task → y.time = x.time → y.process < id) :
    (k.goOn id next).InOrder p := by
  cases next with
  | proceed b =>
    change List.Pairwise _ (⟨id, b, k.now⟩ :: k.others)
    exact h.cons (first _ List.mem_cons_self)
  | block b => exact h
  | finish => exact h
  | hold delay b =>
    rw [goOn]
    dsimp only
    split_ifs with hdue
    · change List.Pairwise _ (⟨id, b, k.now⟩ :: k.others)
      rw [Next.appointments, List.forall_mem_singleton] at first
      exact h.cons first
    · have hlater : k.now < k.now.after delay := lt_of_not_ge hdue
      have hpassing : k.now.passing delay = k.now.after delay :=
        SimTime.later_eq_right (le_of_lt hlater)
      rw [Next.appointments, hpassing] at parks
      have hparks := parks _ List.mem_cons_self
      obtain ⟨hfront, hback, hacross⟩ := List.pairwise_append.mp h
      change List.Pairwise _ (appointed k.now (k.ready ++ k.incoming) ++
        (insertWakeup ⟨k.now.after delay, k.parkings, id, b⟩ k.parked).map Wakeup.appointment)
      refine List.pairwise_append.mpr ⟨hfront, ?_, ?_⟩
      · refine List.pairwise_map.mpr (insertWakeup_pairwise _ _ lined.sorted
          (List.pairwise_map.mp hback) ?_ ?_)
        · intro v hv _ hpv hpb htime
          exact hparks hpb hlater v.appointment
            (List.mem_append_right _ (List.mem_map_of_mem hv)) hpv htime
        · intro v _ hlt _ _ htime
          exact absurd htime (ne_of_lt hlt)
      · intro x hx y hy
        obtain ⟨w, hw, rfl⟩ := List.mem_map.mp hy
        rcases List.mem_cons.mp ((insertWakeup_perm _ _).mem_iff.mp hw) with rfl | hw
        · obtain ⟨q, -, rfl⟩ := List.mem_map.mp hx
          exact fun _ _ htime => absurd htime (ne_of_lt hlater)
        · exact hacross x hx w.appointment (List.mem_map_of_mem hw)

/-- **A turn keeps the order** of a kind of processes, if it wakes and spawns none of them and does
not park its own until a time for which a later one is parked. -/
lemma Turned.inOrder {turn : Turn World Task} (turned : Turned k k' id turn) (order : k.Orderly)
    (runs : k.running = some (id, a)) (h : k.InOrder p) (spawned : ∀ b ∈ turn.spawned, ¬ p b)
    (woken : ∀ q ∈ k.blocked, q.1 ∈ turn.woken → ¬ p q.2)
    (kind : ∀ x ∈ turn.next.appointments id k.now, p x.task → p a)
    (parks : ∀ x ∈ turn.next.appointments id k.now, p x.task → k.now < x.time →
      ∀ y ∈ k.others, p y.task → y.time = x.time → y.process < id) : k'.InOrder p := by
  obtain ⟨ready, hperm, hk'⟩ := applyTurn_eq order id turn
  have hready : ∀ x ∈ appointed k.now ready, ¬ p x.task := by
    intro x hx
    obtain ⟨q, hq, rfl⟩ := List.mem_map.mp hx
    obtain ⟨hblocked, hmem⟩ := List.mem_filter.mp (hperm.mem_iff.mp hq)
    exact woken q hblocked (of_decide_eq_true hmem)
  have hborn : ∀ x ∈ appointed k.now (newborn k.spawned turn.spawned), ¬ p x.task := by
    intro x hx
    obtain ⟨q, hq, rfl⟩ := List.mem_map.mp hx
    exact spawned q.2 (mem_newborn hq).2.2
  rw [InOrder, agenda_running runs, List.pairwise_cons] at h
  let k₁ : Kernel World Task := { k with
    world := turn.world
    ready := k.ready ++ ready
    blocked := k.blocked.filter (·.1 ∉ turn.woken)
    spawned := k.spawned + turn.spawned.length
    incoming := k.incoming ++ newborn k.spawned turn.spawned }
  have hmem : ∀ y ∈ k₁.others, p y.task → y ∈ k.others := by
    intro y hy hp
    simp only [k₁, others, appointed, List.map_append, List.mem_append] at hy ⊢
    rcases hy with ((hy | hy) | (hy | hy)) | hy
    · exact .inl (.inl hy)
    · exact absurd hp (hready y hy)
    · exact .inl (.inr hy)
    · exact absurd hp (hborn y hy)
    · exact .inr hy
  rw [turned.applied, hk']
  refine goOn_inOrder (k := k₁) ⟨order.sorted, order.later⟩ id turn.next ?_ ?_ ?_
  · -- Those that are woken or spawned stand among the others and are of another kind.
    have hothers := h.2
    simp only [k₁, others, appointed, List.map_append] at hothers ⊢
    rw [List.append_assoc] at hothers
    have hwoken := pairwise_insert hothers fun x hx y =>
      ⟨fun hp => absurd hp (hready x hx), fun _ hp => absurd hp (hready x hx)⟩
    rw [← List.append_assoc] at hwoken
    have hall := pairwise_insert hwoken fun x hx y =>
      ⟨fun hp => absurd hp (hborn x hx), fun _ hp => absurd hp (hborn x hx)⟩
    simpa only [appointed, List.append_assoc] using hall
  · intro x hx y hy hpx hp
    exact h.1 y (hmem y hy hp) (kind x hx hpx) hp
  · intro x hx hpx hlater y hy hp
    exact parks x hx hpx hlater y (hmem y hy hp) hp

end ServiceSim.Kernel
