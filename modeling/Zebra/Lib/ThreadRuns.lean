import Zebra.Lib.Thread

namespace Zebra
open Function Base.Deque List Option Timeval

/-- What a thread was added for. -/
structure ThreadJob where
  func : Nat
  arg : Nat
  u : ThreadU
deriving DecidableEq

namespace Timeval
variable {a b c : Timeval}

/-- The difference of two times fits into an `int`. -/
def Near (a b : Timeval) : Prop :=
  -(2 ^ 31) ≤ a.sec - b.sec ∧ a.sec - b.sec < 2 ^ 31

instance (a b : Timeval) : Decidable (a.Near b) :=
  inferInstanceAs (Decidable (_ ∧ _))

theorem le_total (a b : Timeval) : a.Le b ∨ b.Le a := by
  simp only [Le, Fin.le_def]
  omega

theorem Le.trans (first : a.Le b) (second : b.Le c) : a.Le c := by
  simp only [Le, Fin.le_def] at *
  omega

theorem Near.cmp (near : a.Near b) : timevalCmp a b ≤ 0 ↔ a.Le b := by
  have exact_ : ∀ value, -(2 ^ 31) ≤ value → value < 2 ^ 31 → longToInt value = value := by
    intro value low high
    exact Int.bmod_eq_of_le (by omega) (by omega)
  obtain ⟨low, high⟩ := near
  rw [timevalCmp, Le]
  split
  · rw [exact_ _ (by omega) (by omega)]
    omega
  · rw [exact_ _ low high]
    omega

end Timeval

def Thread.job (thread : Thread) : ThreadJob :=
  ⟨thread.func, thread.arg, thread.u⟩

namespace ThreadMaster

/-- The job of a thread that waits to be returned. -/
def live (m : ThreadMaster) (t : ThreadAddr) : Option ThreadJob :=
  if t < m.alloc ∧ (m.thread t).type ≠ .unused then some (m.thread t).job else none

/-- The threads are on the lists their types name, but for one that is out. -/
structure Kept (m : ThreadMaster) (lists : ThreadType → List ThreadAddr) (out : Option ThreadAddr) :
    Prop where
  filed : m.lists.Filed lists
  member : ∀ {list t}, t ∈ lists list ↔ some t ≠ out ∧ t < m.alloc ∧ (m.thread t).type = list
  watched : ∀ {list}, list = .read ∨ list = .write → ∀ fd,
    (lists list).countP (fun t => (m.thread t).fd = fd) = ((m.fdset list).isset fd).toNat
  sorted : (lists .timer).Pairwise fun t later => (m.thread t).sands.Le (m.thread later).sands

section Fields
variable (m : ThreadMaster) (list : ThreadType) (fds : FdSet) (t : ThreadAddr)

@[simp] theorem setFdset_lists : (m.setFdset list fds).lists = m.lists := by
  cases list <;> rfl

@[simp] theorem setFdset_thread : (m.setFdset list fds).thread = m.thread := by
  cases list <;> rfl

@[simp] theorem setFdset_alloc : (m.setFdset list fds).alloc = m.alloc := by
  cases list <;> rfl

theorem setFdset_fdset (watched : list = .read ∨ list = .write) (other : ThreadType) :
    (m.setFdset list fds).fdset other = if other = list then fds else m.fdset other := by
  rcases watched with rfl | rfl <;> cases other <;> rfl

theorem setFdset_unwatched (list : ThreadType) (unwatched : ¬ (list = .read ∨ list = .write)) :
    m.setFdset list fds = m := by
  cases list with
  | read => exact absurd (.inl rfl) unwatched
  | write => exact absurd (.inr rfl) unwatched
  | timer | event | ready | unused => rfl

theorem timerInsert_thread : (m.timerInsert t).thread = m.thread := by
  rw [timerInsert]
  split <;> rfl

theorem timerInsert_alloc : (m.timerInsert t).alloc = m.alloc := by
  rw [timerInsert]
  split <;> rfl

theorem setThread_self (thread : Thread) : (m.setThread t thread).thread t = thread :=
  update_self ..

theorem fdset_congr {changed : ThreadMaster} (read : changed.readfd = m.readfd)
    (write : changed.writefd = m.writefd) :
    changed.fdset = m.fdset := by
  funext list
  cases list <;> simp only [fdset, read, write]

end Fields

namespace Kept
variable {m : ThreadMaster} {lists : ThreadType → List ThreadAddr} {out : Option ThreadAddr}
  {list : ThreadType} {t : ThreadAddr}

theorem nodup (kept : m.Kept lists out) : (lists list).Nodup :=
  (kept.filed.holds list).nodup

theorem short (kept : m.Kept lists out) : (lists list).length ≤ m.alloc := by
  have inside : lists list ⊆ range m.alloc :=
    fun t member => mem_range.mpr (kept.member.mp member).2.1
  have shorter := (subperm_of_subset kept.nodup inside).length_le
  rwa [length_range] at shorter

theorem firstOf (kept : m.Kept lists out) (wanted : ThreadAddr → Bool) :
    m.firstOf list wanted = (lists list).find? wanted := by
  have found := (kept.filed.holds list).find wanted (nil_append _).symm kept.short
  rwa [← (kept.filed.holds list).head] at found

theorem take (kept : m.Kept lists none) {before after : List ThreadAddr}
    (split : lists list = before ++ t :: after) :
    ((m.fdClr list (m.thread t).fd).threadListDelete list t).Kept
      (update lists list (before ++ after)) (some t) := by
  have here : t ∈ lists list := split ▸ mem_append_cons_self
  have nodup : (before ++ t :: after).Nodup := split ▸ kept.nodup
  have gone := (nodup_cons.mp (nodup_middle.mp nodup)).1
  have remain : ∀ {other}, other ∈ before ++ after ↔ other ≠ t ∧ other ∈ lists list := by
    intro other
    rw [split, mem_append, mem_append, mem_cons]
    constructor
    · intro member
      exact ⟨fun same => gone (mem_append.mpr (same ▸ member)), member.imp_right .inr⟩
    · rintro ⟨different, member | same | member⟩
      · exact .inl member
      · exact absurd same different
      · exact .inr member
  have shorter : (before ++ after).Sublist (lists list) :=
    split ▸ Sublist.append_left (sublist_cons_self _ _) _
  refine ⟨?_, ?_, ?_, ?_⟩
  · simp only [threadListDelete, fdClr, setFdset_lists]
    exact kept.filed.delete split
  · intro other m'
    simp only [threadListDelete, fdClr, setFdset_thread, setFdset_alloc]
    rw [ne_eq, some_inj, update_apply]
    by_cases same : other = list
    · subst same
      rw [if_pos rfl, remain, kept.member]
      simp
    · rw [if_neg same, kept.member]
      constructor
      · rintro ⟨-, young, type⟩
        refine ⟨fun mine => same ?_, young, type⟩
        exact type.symm.trans (mine ▸ (kept.member.mp here).2.2)
      · rintro ⟨-, young, type⟩
        exact ⟨nofun, young, type⟩
  · intro other watched fd
    have before' := kept.watched watched fd
    have fdsets : ((m.fdClr list (m.thread t).fd).threadListDelete list t).fdset =
        (m.setFdset list ((m.fdset list).put (m.thread t).fd false)).fdset := fdset_congr _ rfl rfl
    rw [fdsets]
    simp only [threadListDelete, fdClr, setFdset_thread]
    by_cases same : other = list
    · subst same
      rw [setFdset_fdset _ _ _ watched, if_pos rfl, update_self, FdSet.isset_clear, update_apply]
      rw [split, countP_append, countP_cons] at before'
      rw [countP_append]
      by_cases mine : fd = (m.thread t).fd
      · subst mine
        rw [if_pos rfl]
        have most := Bool.toNat_le ((m.fdset other).isset (m.thread t).fd)
        simp only [decide_true, if_true] at before'
        simp only [Bool.toNat_false]
        omega
      · rw [if_neg mine, ← before']
        simp [Ne.symm mine]
    · rw [update_of_ne same]
      refine before'.trans ?_
      by_cases mine : list = .read ∨ list = .write
      · rw [setFdset_fdset _ _ _ mine, if_neg same]
      · rw [setFdset_unwatched _ _ _ mine]
  · simp only [threadListDelete, fdClr, setFdset_thread]
    rw [update_apply]
    split
    · rename_i same
      subst same
      exact kept.sorted.sublist shorter
    · exact kept.sorted

section
variable (kept : m.Kept lists (some t))
include kept

theorem rewrite (thread : Thread) : (m.setThread t thread).Kept lists (some t) := by
  have apart : ∀ {list other}, other ∈ lists list →
      (m.setThread t thread).thread other = m.thread other :=
    fun member => update_of_ne (fun same => (kept.member.mp member).1 (congrArg some same)) ..
  refine ⟨kept.filed, ?_, ?_, ?_⟩
  · intro list other
    by_cases same : other = t
    · subst same
      exact iff_of_false (fun member => (kept.member.mp member).1 rfl)
        (fun claimed => claimed.1 rfl)
    · have same' : (m.setThread t thread).thread other = m.thread other := update_of_ne same ..
      rw [kept.member, same']
      rfl
  · intro list watched fd
    have fdsets : (m.setThread t thread).fdset = m.fdset := fdset_congr m rfl rfl
    rw [fdsets, ← kept.watched watched fd]
    exact countP_congr fun other member => by rw [apart member]
  · exact kept.sorted.imp_of_mem fun first second order => by rwa [apart first, apart second]

theorem member_back (young : t < m.alloc) (type : (m.thread t).type = list) {nodes}
    (grown : ∀ {other}, other ∈ nodes ↔ other = t ∨ other ∈ lists list) {other node} :
    node ∈ update lists list nodes other ↔ some node ≠ none ∧ node < m.alloc ∧
    (m.thread node).type = other := by
  rw [update_apply]
  by_cases same : other = list
  · subst same
    rw [if_pos rfl, grown, kept.member]
    constructor
    · rintro (rfl | ⟨-, claimed⟩)
      · exact ⟨nofun, young, type⟩
      · exact ⟨nofun, claimed⟩
    · rintro ⟨-, claimed⟩
      by_cases mine : node = t
      · exact .inl mine
      · exact .inr ⟨fun equal => mine (some.inj equal), claimed⟩
  · rw [if_neg same, kept.member]
    constructor
    · rintro ⟨-, claimed⟩
      exact ⟨nofun, claimed⟩
    · rintro ⟨-, claimed⟩
      refine ⟨fun equal => same ?_, claimed⟩
      cases equal
      exact claimed.2.symm.trans type

theorem outside (list : ThreadType) : t ∉ lists list :=
  fun member => (kept.member.mp member).1 rfl

theorem file (young : t < m.alloc) (type : (m.thread t).type = list) (untimed : list ≠ .timer)
    (free : list = .read ∨ list = .write →
      (m.thread t).fd.Within ∧ (m.fdset list).isset (m.thread t).fd = false) :
    ((m.fdSet list (m.thread t).fd).threadListAdd list t).Kept
      (update lists list (lists list ++ [t])) none := by
  refine ⟨?_, ?_, ?_, ?_⟩
  · simp only [threadListAdd, fdSet, setFdset_lists]
    exact kept.filed.append list kept.outside
  · simp only [threadListAdd, fdSet, setFdset_thread, setFdset_alloc]
    exact kept.member_back young type (by simp [or_comm])
  · intro other watched fd
    have before := kept.watched watched fd
    have fdsets : ((m.fdSet list (m.thread t).fd).threadListAdd list t).fdset =
        (m.setFdset list ((m.fdset list).put (m.thread t).fd true)).fdset := fdset_congr _ rfl rfl
    rw [fdsets]
    simp only [threadListAdd, fdSet, setFdset_thread]
    by_cases same : other = list
    · subst same
      rw [setFdset_fdset _ _ _ watched, if_pos rfl, update_self,
        FdSet.isset_put fun _ => (free watched).1, update_apply, countP_append, before,
        countP_singleton]
      by_cases mine : fd = (m.thread t).fd
      · subst mine
        rw [(free watched).2]
        simp
      · simp [mine, Ne.symm mine]
    · rw [update_of_ne same]
      refine before.trans ?_
      by_cases mine : list = .read ∨ list = .write
      · rw [setFdset_fdset _ _ _ mine, if_neg same]
      · rw [setFdset_unwatched _ _ _ mine]
  · simp only [threadListAdd, fdSet, setFdset_thread]
    rw [update_of_ne (Ne.symm untimed)]
    exact kept.sorted

end

theorem timerInsert (kept : m.Kept lists (some t)) (young : t < m.alloc)
    (type : (m.thread t).type = .timer)
    (near : ∀ tt ∈ lists .timer, (m.thread t).sands.Near (m.thread tt).sands) :
    ∃ lists, (m.timerInsert t).Kept lists none := by
  have fresh := kept.outside
  rw [ThreadMaster.timerInsert, kept.firstOf]
  cases found : (lists .timer).find? fun tt =>
    timevalCmp (m.thread t).sands (m.thread tt).sands ≤ 0 with
  | none =>
    have later : ∀ tt ∈ lists .timer, (m.thread tt).sands.Le (m.thread t).sands := by
      intro tt member
      have after := find?_eq_none.mp found tt member
      rw [decide_eq_true_eq, (near tt member).cmp] at after
      exact (le_total ..).resolve_left after
    refine ⟨update lists .timer (lists .timer ++ [t]), kept.filed.append .timer fresh,
      kept.member_back young type (by simp [or_comm]), ?_, ?_⟩
    · intro list watched fd
      have different : list ≠ .timer := by rcases watched with rfl | rfl <;> nofun
      rw [update_of_ne different]
      exact kept.watched watched fd
    · rw [update_self, pairwise_append]
      refine ⟨kept.sorted, pairwise_singleton .., fun tt member last lastMem => ?_⟩
      obtain rfl := mem_singleton.mp lastMem
      exact later tt member
  | some point =>
    obtain ⟨chosen, before, after, split, earlier⟩ := find?_eq_some_iff_append.mp found
    have atPoint : point ∈ lists .timer := split ▸ mem_append_cons_self
    rw [decide_eq_true_eq, (near point atPoint).cmp] at chosen
    have sorted := kept.sorted
    rw [split, pairwise_append] at sorted
    obtain ⟨first, second, across⟩ := sorted
    refine ⟨update lists .timer (before ++ t :: point :: after),
      kept.filed.insertBefore split fresh,
      kept.member_back young type (by rw [split]; simp [or_left_comm]), ?_, ?_⟩
    · intro list watched fd
      have different : list ≠ .timer := by rcases watched with rfl | rfl <;> nofun
      rw [update_of_ne different]
      exact kept.watched watched fd
    · rw [update_self, pairwise_append]
      refine ⟨first, pairwise_cons.mpr ⟨fun tt member => ?_, second⟩,
        fun tt early later member => ?_⟩
      · rcases mem_cons.mp member with rfl | member
        · exact chosen
        · exact chosen.trans ((pairwise_cons.mp second).1 tt member)
      · rcases mem_cons.mp member with rfl | member
        · have notBefore := earlier tt early
          have inside : tt ∈ lists .timer := split ▸ mem_append_left _ early
          rw [Bool.not_eq_true', decide_eq_false_iff_not, (near tt inside).cmp] at notBefore
          exact (le_total ..).resolve_left notBefore
        · exact across tt early later member

theorem unuse (kept : m.Kept lists (some t)) (young : t < m.alloc) (next : m.lists.next t = none)
    (prev : m.lists.prev t = none) :
    ∃ done, m.unuse t = some done ∧ done.Kept (update lists .unused (lists .unused ++ [t])) none ∧
      done.alloc = m.alloc ∧ done.thread =
        update m.thread t { m.thread t with type := .unused } := by
  have type : ((m.setType t .unused).thread t).type = .unused := by
    rw [setType, setThread_self]
  have filed := (kept.rewrite { m.thread t with type := .unused }).file young type nofun nofun
  exact ⟨(m.setType t .unused).threadListAdd .unused t, if_pos ⟨next, prev, type⟩, filed, rfl, rfl⟩

end Kept

section Live
variable {m : ThreadMaster} {lists : ThreadType → List ThreadAddr} {list : ThreadType}
  {t : ThreadAddr}

theorem live_congr {changed : ThreadMaster} (thread : changed.thread = m.thread)
    (alloc : changed.alloc = m.alloc) :
    changed.live = m.live := by
  funext t
  rw [live, live, thread, alloc]

theorem live_written {changed : ThreadMaster} {thread} (young : t < m.alloc)
    (written : changed.thread = update m.thread t thread) (alloc : changed.alloc = m.alloc) :
    changed.live = update m.live t (if thread.type = .unused then none else some thread.job) := by
  funext other
  rw [live, written, alloc, update_apply, update_apply]
  by_cases same : other = t
  · subst same
    simp [young]
  · simp only [if_neg same]
    rfl

/-- The lists after a thread went from one to the unused ones. -/
def retired (lists : ThreadType → List ThreadAddr) (list : ThreadType) (nodes : List ThreadAddr)
    (t : ThreadAddr) :
    ThreadType → List ThreadAddr :=
  update (update lists list nodes) .unused (update lists list nodes .unused ++ [t])

theorem enlarge_thread {other} (different : other ≠ m.alloc) :
    m.enlarge.thread other = m.thread other :=
  update_of_ne different ..

/-- A structure has been taken for a new thread. -/
structure Taken (m got : ThreadMaster) (t : ThreadAddr) : Prop where
  kept : ∃ lists, got.Kept lists (some t)
  young : t < got.alloc
  idle : m.live t = none
  others : ∀ other, other ≠ t → (other < got.alloc ↔ other < m.alloc) ∧
    got.thread other = m.thread other
  fdset : got.fdset = m.fdset

section
variable (kept : m.Kept lists none)
include kept

theorem Kept.live_of_member (member : t ∈ lists list) (used : list ≠ .unused) :
    m.live t = some (m.thread t).job := by
  obtain ⟨-, young, type⟩ := kept.member.mp member
  exact if_pos ⟨young, type ▸ used⟩

theorem Kept.finish {before after : List ThreadAddr} (split : lists list = before ++ t :: after) :
    ∃ done, ((m.fdClr list (m.thread t).fd).threadListDelete list t).unuse t = some done ∧
      done.Kept (retired lists list (before ++ after) t) none ∧ done.alloc = m.alloc ∧
      done.live = update m.live t none := by
  have here : t ∈ lists list := split ▸ mem_append_cons_self
  have young := (kept.member.mp here).2.1
  obtain ⟨done, run, kept', alloc, written⟩ := (kept.take split).unuse
    (by simpa only [threadListDelete, fdClr, setFdset_alloc] using young)
    (by simp only [threadListDelete, delete_next, if_true])
      (by simp only [threadListDelete, delete_prev, if_true])
  simp only [threadListDelete, fdClr, setFdset_alloc, setFdset_thread] at alloc written
  exact ⟨done, run, kept', alloc, live_written young written alloc⟩

theorem Kept.bit (watched : list = .read ∨ list = .write) (member : t ∈ lists list) :
    (m.fdset list).isset (m.thread t).fd = true := by
  have one := kept.watched watched (m.thread t).fd
  have present : 0 < (lists list).countP fun other => (m.thread other).fd = (m.thread t).fd :=
    countP_pos_iff.mpr ⟨t, member, decide_eq_true rfl⟩
  rw [one] at present
  cases set : (m.fdset list).isset (m.thread t).fd with
  | true => rfl
  | false =>
    rw [set] at present
    exact absurd present (Nat.lt_irrefl 0)

theorem Kept.cancel (waiting : m.live t ≠ none) :
    ∃ done, m.threadCancel t = some done ∧ (∃ lists, done.Kept lists none) ∧
      done.live = update m.live t none := by
  obtain ⟨young, used⟩ : t < m.alloc ∧ (m.thread t).type ≠ .unused := by
    by_contra idle
    exact waiting (if_neg idle)
  have here : t ∈ lists (m.thread t).type := kept.member.mpr ⟨nofun, young, rfl⟩
  obtain ⟨before, after, split⟩ := append_of_mem here
  obtain ⟨done, run, kept', -, live⟩ := kept.finish split
  refine ⟨done, ?_, ⟨_, kept'⟩, live⟩
  rw [threadCancel]
  cases type : (m.thread t).type with
  | read =>
    rw [type] at run
    exact (if_pos (kept.bit (.inl rfl) (type ▸ here))).trans run
  | write =>
    rw [type] at run
    exact (if_pos (kept.bit (.inr rfl) (type ▸ here))).trans run
  | timer | event | ready =>
    rw [type] at run
    exact run
  | unused => exact absurd type used

theorem Kept.enlarge : m.enlarge.Kept lists (some m.alloc) := by
  have written : ∀ {list other}, other ∈ lists list → m.enlarge.thread other = m.thread other :=
    fun member => enlarge_thread (Nat.ne_of_lt (kept.member.mp member).2.1)
  refine ⟨kept.filed, ?_, ?_, ?_⟩
  · intro list other
    rw [kept.member]
    by_cases same : other = m.alloc
    · subst same
      exact iff_of_false (fun claimed => Nat.lt_irrefl _ claimed.2.1) (fun claimed => claimed.1 rfl)
    · rw [enlarge_thread same]
      refine and_congr (iff_of_true nofun fun equal => same (some.inj equal))
        (and_congr_left fun _ => ?_)
      exact ⟨Nat.lt_succ_of_lt, fun young => Nat.lt_of_le_of_ne (Nat.le_of_lt_succ young) same⟩
  · intro list watched fd
    refine Eq.trans (countP_congr fun other member => ?_) (kept.watched watched fd)
    rw [written member]
  · refine kept.sorted.imp_of_mem fun early late order => ?_
    rwa [written early, written late]

theorem Kept.threadTake : Taken m m.threadTake.1 m.threadTake.2 := by
  rw [ThreadMaster.threadTake, (kept.filed.holds .unused).head]
  cases nodes : lists .unused with
  | nil =>
    refine ⟨⟨lists, kept.enlarge⟩, Nat.lt_succ_self _,
      if_neg fun claimed => Nat.lt_irrefl _ claimed.1,
      fun other different => ⟨⟨fun young => ?_, Nat.lt_succ_of_lt⟩, enlarge_thread different⟩,
        fdset_congr m rfl rfl⟩
    exact Nat.lt_of_le_of_ne (Nat.le_of_lt_succ young) different
  | cons t rest =>
    have here := kept.member.mp (nodes ▸ mem_cons_self : t ∈ lists .unused)
    have split : lists .unused = [] ++ t :: rest := nodes
    exact ⟨⟨_, kept.take split⟩, here.2.1, if_neg fun claimed => claimed.2 here.2.2,
      fun other different => ⟨Iff.rfl, rfl⟩, fdset_congr m rfl rfl⟩

end

theorem retired_self {nodes} (used : list ≠ .unused) : retired lists list nodes t list = nodes := by
  rw [retired, update_of_ne used, update_self]

theorem Taken.setThread {got} (taken : Taken m got t) (thread : Thread) :
    Taken m (got.setThread t thread) t where
  kept := taken.kept.imp fun _ kept => kept.rewrite thread
  young := taken.young
  idle := taken.idle
  others other different := ⟨(taken.others other different).1,
    (update_of_ne different ..).trans (taken.others other different).2⟩
  fdset := taken.fdset

theorem Taken.live {got changed : ThreadMaster} (taken : Taken m got t)
    (thread : changed.thread = got.thread)
    (alloc : changed.alloc = got.alloc) (used : (got.thread t).type ≠ .unused) :
    changed.live = update m.live t (some (got.thread t).job) := by
  rw [live_congr thread alloc]
  funext other
  by_cases same : other = t
  · subst same
    rw [update_self]
    exact if_pos ⟨taken.young, used⟩
  · obtain ⟨young, data⟩ := taken.others other same
    rw [update_of_ne same, ThreadMaster.live, ThreadMaster.live, data]
    simp only [young]

/-- A new thread waits, and everything else is as it was. -/
structure Added (m changed : ThreadMaster) (t : ThreadAddr) (job : ThreadJob) : Prop where
  kept : ∃ lists, changed.Kept lists none
  idle : m.live t = none
  live : changed.live = update m.live t (some job)

section
variable (kept : m.Kept lists none)
include kept

theorem Kept.threadGet (type : ThreadType) (func arg : Nat) (u : ThreadU) :
    Taken m ((m.threadGet type func arg).1.setU (m.threadGet type func arg).2 u)
    (m.threadGet type func arg).2 ∧
      ((m.threadGet type func arg).1.setU (m.threadGet type func arg).2 u).thread
        (m.threadGet type func arg).2 =
        ⟨type, func, arg, u⟩ := by
  refine ⟨(kept.threadTake.setThread _).setThread _, ?_⟩
  rw [setU, ThreadMaster.threadGet]
  simp only [setUp, setThread_self]

theorem Kept.makeReady {before after : List ThreadAddr}
    (split : lists list = before ++ t :: after) (used : list ≠ .unused) :
    (m.makeReady list t).Kept (update (update lists list (before ++ after)) .ready
        (update lists list (before ++ after) .ready ++ [t])) none ∧
      (m.makeReady list t).live = m.live := by
  have here : t ∈ lists list := split ▸ mem_append_cons_self
  have young := (kept.member.mp here).2.1
  have out := (kept.take split).rewrite { m.thread t with type := .ready }
  have typed := congrArg Thread.type
    (setThread_self ((m.fdClr list (m.thread t).fd).threadListDelete list t) t { m.thread t with
      type := .ready })
  have filed :=
    out.file (by simpa only [setThread, threadListDelete, fdClr, setFdset_alloc] using young)
    typed nofun nofun
  have same :
      m.makeReady list t = (((m.fdClr list (m.thread t).fd).threadListDelete list t).setThread t
      { m.thread t with type := .ready }).threadListAdd .ready t := by
    simp only [ThreadMaster.makeReady, setType, setThread, threadListAdd, threadListDelete, fdClr,
      setFdset_thread]
  refine ⟨same ▸ filed, ?_⟩
  have written : (m.makeReady list t).thread =
      update m.thread t { m.thread t with type := .ready } := by
    simp only [same, setThread, threadListAdd, threadListDelete, fdClr, setFdset_thread]
  have alloc : (m.makeReady list t).alloc = m.alloc := by
    simp only [same, setThread, threadListAdd, threadListDelete, fdClr, setFdset_alloc]
  rw [live_written young written alloc]
  refine (congrArg (update m.live t) ?_).trans (update_eq_self t m.live)
  exact (kept.live_of_member here used).symm

section
variable (watched : list = .read ∨ list = .write)
include watched

theorem Kept.addFd (func arg : Nat) {fd : Fd} (within : fd.Within)
    (free : (m.fdset list).isset fd = false) :
    ∃ added t, m.threadAddFd list func arg fd = some (added, some t) ∧
      Added m added t ⟨func, arg, .fd fd⟩ := by
  obtain ⟨taken, thread⟩ := kept.threadGet list func arg (.fd fd)
  rw [threadAddFd, if_neg (not_not_intro within), free]
  generalize m.threadGet list func arg = got at taken thread
  obtain ⟨got, t⟩ := got
  obtain ⟨_, out⟩ := taken.kept
  have typed : ((got.setU t (.fd fd)).thread t).type = list := by rw [thread]
  have mine : ((got.setU t (.fd fd)).thread t).fd = fd := by rw [thread]; rfl
  have swap : (got.fdSet list fd).setU t (.fd fd) = (got.setU t (.fd fd)).fdSet list fd := by
    rcases watched with rfl | rfl <;> rfl
  have used : list ≠ .unused := by rcases watched with rfl | rfl <;> nofun
  have untimed : list ≠ .timer := by rcases watched with rfl | rfl <;> nofun
  have filed := out.file taken.young typed untimed (fun _ => by
    rw [taken.fdset, mine]
    exact ⟨within, free⟩)
  rw [mine] at filed
  refine ⟨_, t, rfl, ?_⟩
  rw [swap]
  refine ⟨⟨_, filed⟩, taken.idle, ?_⟩
  rw [taken.live (by simp only [threadListAdd, fdSet, setFdset_thread])
    (by simp only [threadListAdd, fdSet, setFdset_alloc])
    (typed ▸ used), thread]
  rfl

theorem Kept.processFdFrom {fds fuel before rest}
    (split : lists list = before ++ rest) (enough : rest.length ≤ fuel) :
    ∃ polled, processFdFrom list fds fuel rest.head? m = some polled ∧
      (∃ lists, polled.Kept lists none) ∧ polled.live = m.live := by
  have used : list ≠ .unused := by rcases watched with rfl | rfl <;> nofun
  have unready : list ≠ .ready := by rcases watched with rfl | rfl <;> nofun
  induction rest generalizing m lists before fuel with
  | nil => exact ⟨m, by cases fuel <;> rfl, ⟨lists, kept⟩, rfl⟩
  | cons t rest ih =>
    cases fuel with
    | zero => exact absurd enough (Nat.not_succ_le_zero _)
    | succ fuel =>
      have fewer := Nat.le_of_succ_le_succ enough
      have here : t ∈ lists list := split ▸ mem_append_cons_self
      have bit := kept.bit watched here
      rw [head?_cons, ThreadMaster.processFdFrom, (kept.filed.holds list).next split,
        if_neg (not_not_intro (FdSet.within_of_isset bit))]
      split
      · obtain ⟨kept', live⟩ := kept.makeReady split used
        rw [← live]
        exact ih kept' (by rw [update_of_ne unready, update_self]) fewer
      · exact ih kept (split.trans (append_cons before t rest)) fewer

theorem Kept.processFd (fds : FdSet) :
    ∃ polled, m.threadProcessFd list fds = some polled ∧ (∃ lists, polled.Kept lists none) ∧
      polled.live = m.live := by
  rw [threadProcessFd, (kept.filed.holds list).head]
  exact kept.processFdFrom watched (nil_append _).symm kept.short

end

theorem Kept.addTimer (func arg : Nat) (timer : Int) (now : Timeval)
    (near : ∀ tt ∈ lists .timer, Near { now with sec := now.sec + timer } (m.thread tt).sands) :
    Added m (m.threadAddTimer func arg timer now).1 (m.threadAddTimer func arg timer now).2
      ⟨func, arg, .sands { now with sec := now.sec + timer }⟩ := by
  obtain ⟨taken, thread⟩ :=
    kept.threadGet .timer func arg (.sands { now with sec := now.sec + timer })
  rw [threadAddTimer]
  generalize m.threadGet .timer func arg = got at taken thread
  obtain ⟨got, t⟩ := got
  obtain ⟨after, out⟩ := taken.kept
  have typed : ((got.setU t (.sands { now with sec := now.sec + timer })).thread t).type =
    .timer := by rw [thread]
  refine ⟨out.timerInsert taken.young typed ?_, taken.idle, ?_⟩
  · intro tt member
    obtain ⟨different, young, type⟩ := out.member.mp member
    obtain ⟨older, same⟩ := taken.others tt fun equal => different (congrArg some equal)
    rw [same] at type ⊢
    rw [thread]
    exact near tt (kept.member.mpr ⟨nofun, older.mp young, type⟩)
  · rw [taken.live (timerInsert_thread ..) (timerInsert_alloc ..) (by rw [typed]; nofun), thread]
    rfl

theorem Kept.addEvent (func arg : Nat) (val : Int) :
    Added m (m.threadAddEvent func arg val).1 (m.threadAddEvent func arg val).2
      ⟨func, arg, .val val⟩ := by
  obtain ⟨taken, thread⟩ := kept.threadGet .event func arg (.val val)
  rw [threadAddEvent]
  generalize m.threadGet .event func arg = got at taken thread
  obtain ⟨got, t⟩ := got
  obtain ⟨_, out⟩ := taken.kept
  have typed : ((got.setU t (.val val)).thread t).type = .event := by rw [thread]
  refine ⟨⟨_, out.file taken.young typed nofun nofun⟩, taken.idle, ?_⟩
  refine (taken.live rfl rfl (by rw [typed]; nofun)).trans ?_
  rw [thread]
  rfl

/-- The threads that are cancelled one after the other. -/
def Dropped : (ThreadAddr → Option ThreadJob) → List ThreadAddr →
    (ThreadAddr → Option ThreadJob) → Prop
  | live, [], after => after = live
  | live, t :: gone, after => live t ≠ none ∧ Dropped (update live t none) gone after

theorem Kept.cancelEventFrom {arg fuel before rest}
    (split : lists .event = before ++ rest) (enough : rest.length ≤ fuel) :
    ∃ done gone, cancelEventFrom arg fuel rest.head? m = some (done, gone) ∧
      (∃ lists, done.Kept lists none) ∧ Dropped m.live gone done.live := by
  induction rest generalizing m lists before fuel with
  | nil => exact ⟨m, [], by cases fuel <;> rfl, ⟨lists, kept⟩, rfl⟩
  | cons t rest ih =>
    cases fuel with
    | zero => exact absurd enough (Nat.not_succ_le_zero _)
    | succ fuel =>
      have fewer := Nat.le_of_succ_le_succ enough
      have here : t ∈ lists .event := split ▸ mem_append_cons_self
      rw [head?_cons, ThreadMaster.cancelEventFrom, (kept.filed.holds .event).next split]
      split
      · obtain ⟨cut, run, kept', -, live⟩ := kept.finish split
        obtain ⟨done, gone, ran, last, dropped⟩ := ih kept' (retired_self nofun) fewer
        refine ⟨done, t :: gone, ?_, last, ?_, live ▸ dropped⟩
        · rw [show (m.threadListDelete .event t).unuse t = some cut from run, bind_some, ran]
          rfl
        · rw [kept.live_of_member here nofun]
          nofun
      · exact ih kept (split.trans (append_cons before t rest)) fewer

theorem Kept.cancelEvent (arg : Nat) :
    ∃ done gone, m.threadCancelEvent arg = some (done, gone) ∧
      (∃ lists, done.Kept lists none) ∧ Dropped m.live gone done.live := by
  rw [threadCancelEvent, (kept.filed.holds .event).head]
  exact kept.cancelEventFrom (nil_append _).symm kept.short

end

/-- What a call of `thread_fetch` has done. -/
def Fetched (m : ThreadMaster) : Fetch → Prop
  | .waiting after | .null after => (∃ lists, after.Kept lists none) ∧ after.live = m.live
  | .thread after t fetch =>
    (∃ lists, after.Kept lists none) ∧ m.live t = some fetch.job ∧ after.live = update m.live t none

theorem Fetched.congr {other : ThreadMaster} (same : other.live = m.live) {fetch : Fetch}
    (fetched : other.Fetched fetch) :
    m.Fetched fetch := by
  cases fetch with
  | waiting after | null after => exact ⟨fetched.1, fetched.2.trans same⟩
  | thread after t fetch =>
    obtain ⟨kept, job, live⟩ := fetched
    rw [same] at job live
    exact ⟨kept, job, live⟩

theorem Kept.runFrom (kept : m.Kept lists none) (member : t ∈ lists list)
    (kind : list = .event ∨ list = .timer ∨ list = .ready) :
    ∃ fetch, m.runFrom list t = some fetch ∧ m.Fetched fetch := by
  obtain ⟨before, after, split⟩ := append_of_mem member
  obtain ⟨done, run, kept', -, live⟩ := kept.finish split
  have used : list ≠ .unused := by rcases kind with rfl | rfl | rfl <;> nofun
  have same : m.fdClr list (m.thread t).fd = m := by rcases kind with rfl | rfl | rfl <;> rfl
  rw [same] at run
  refine ⟨.thread done t (m.thread t), ?_, ⟨_, kept'⟩, kept.live_of_member member used, live⟩
  rw [ThreadMaster.runFrom, threadRun, run]
  rfl

theorem Kept.threadDue (kept : m.Kept lists none) {now} (due : m.threadDue now = some (list, t)) :
    t ∈ lists list ∧ (list = .event ∨ list = .timer ∨ list = .ready) := by
  rw [ThreadMaster.threadDue] at due
  split at due
  · rename_i head
    cases due
    rw [(kept.filed.holds _).head] at head
    exact ⟨mem_of_head? head, .inl rfl⟩
  · split at due
    · rename_i found
      cases due
      rw [kept.firstOf] at found
      exact ⟨mem_of_find?_eq_some found, .inr (.inl rfl)⟩
    · obtain ⟨_, head, same⟩ := map_eq_some_iff.mp due
      cases same
      rw [(kept.filed.holds _).head] at head
      exact ⟨mem_of_head? head, .inr (.inr rfl)⟩

theorem Kept.fetch (kept : m.Kept lists none) (rounds : List Round) :
    ∃ fetch, m.threadFetch rounds = some fetch ∧ m.Fetched fetch := by
  induction rounds generalizing m lists with
  | nil => exact ⟨.waiting m, rfl, ⟨lists, kept⟩, rfl⟩
  | cons round rest ih =>
    rw [threadFetch]
    split
    · rename_i list t due
      obtain ⟨member, kind⟩ := kept.threadDue due
      exact kept.runFrom member kind
    · split
      · exact ih kept
      · split
        · split
          · exact ih kept
          · exact ⟨.null m, rfl, ⟨lists, kept⟩, rfl⟩
        · obtain ⟨first, run, ⟨lists', kept'⟩, same⟩ := kept.processFd (.inl rfl) round.readfd
          obtain ⟨polled, ran, ⟨last, lastKept⟩, same'⟩ := kept'.processFd (.inr rfl) round.writefd
          rw [run, bind_some, ran, bind_some]
          cases head : polled.lists.head .ready with
          | some t =>
            have inside := head
            rw [(lastKept.filed.holds _).head] at inside
            obtain ⟨fetch, result, fetched⟩ :=
              lastKept.runFrom (mem_of_head? inside) (.inr (.inr rfl))
            exact ⟨fetch, result, fetched.congr (same'.trans same)⟩
          | none =>
            obtain ⟨fetch, result, fetched⟩ := ih lastKept
            exact ⟨fetch, result, fetched.congr (same'.trans same)⟩

end Live
end ThreadMaster

/-- What happens to threads. -/
inductive ThreadEvent where
  | added (t : ThreadAddr) (job : ThreadJob)
  | cancelled (t : ThreadAddr)
  | returned (t : ThreadAddr) (job : ThreadJob)

namespace ThreadEvent

/-- The threads that were added last and neither returned nor cancelled since; the newest event is
  first. -/
def owed : List ThreadEvent → ThreadAddr → Option ThreadJob
  | [] => fun _ => none
  | .added t job :: earlier => update (owed earlier) t (some job)
  | .cancelled t :: earlier | .returned t _ :: earlier => update (owed earlier) t none

/-- A thread is returned, or cancelled, once at most for each time it is added, and as it was
  added. -/
def Orderly : List ThreadEvent → Prop
  | [] => True
  | .added t _ :: earlier => owed earlier t = none ∧ Orderly earlier
  | .cancelled t :: earlier => owed earlier t ≠ none ∧ Orderly earlier
  | .returned t job :: earlier => owed earlier t = some job ∧ Orderly earlier

end ThreadEvent

inductive ThreadOp where
  | addRead (func arg : Nat) (fd : Fd)
  | addWrite (func arg : Nat) (fd : Fd)
  | addTimer (func arg : Nat) (timer : Int) (now : Timeval)
  | addEvent (func arg : Nat) (val : Int)
  | cancel (t : ThreadAddr)
  | cancelEvent (arg : Nat)
  | fetch (rounds : List ThreadMaster.Round)

/-- The master and what has happened so far. -/
structure ThreadSession where
  master : ThreadMaster := .threadMasterCreate
  log : List ThreadEvent := []

namespace ThreadSession
open ThreadEvent ThreadMaster

/-- A thread was added unless the descriptor is watched already. -/
def added (session : ThreadSession) (job : ThreadJob) :
    ThreadMaster × Option ThreadAddr → ThreadSession
  | (m, some t) => ⟨m, .added t job :: session.log⟩
  | (m, none) => ⟨m, session.log⟩

section
variable (session : ThreadSession)

def fetched : Fetch → ThreadSession
  | .waiting m | .null m => ⟨m, session.log⟩
  | .thread m t fetch => ⟨m, .returned t fetch.job :: session.log⟩

def step : ThreadOp → Option ThreadSession
  | .addRead func arg fd =>
    (session.master.threadAddRead func arg fd).map (session.added ⟨func, arg, .fd fd⟩)
  | .addWrite func arg fd =>
    (session.master.threadAddWrite func arg fd).map (session.added ⟨func, arg, .fd fd⟩)
  | .addTimer func arg timer now =>
    let (m, t) := session.master.threadAddTimer func arg timer now
    some (session.added ⟨func, arg, .sands { now with sec := now.sec + timer }⟩ (m, some t))
  | .addEvent func arg val =>
    let (m, t) := session.master.threadAddEvent func arg val
    some (session.added ⟨func, arg, .val val⟩ (m, some t))
  | .cancel t => (session.master.threadCancel t).map fun m => ⟨m, .cancelled t :: session.log⟩
  | .cancelEvent arg =>
    (session.master.threadCancelEvent arg).map fun (m, gone) =>
      ⟨m, (gone.map .cancelled).reverse ++ session.log⟩
  | .fetch rounds => (session.master.threadFetch rounds).map session.fetched

/-- Only a descriptor within the sets is watched, and only a thread that waits is cancelled. -/
def Callable : ThreadOp → Prop
  | .addRead _ _ fd | .addWrite _ _ fd => fd.Within
  | .cancel t => session.master.live t ≠ none
  | _ => True

/-- A timer expires less than 2^31 seconds before or after each timer that is waiting. -/
def Timely : ThreadOp → Prop
  | .addTimer _ _ timer now => ∀ tt < session.master.alloc,
    (session.master.thread tt).type = .timer →
    Timeval.Near { now with sec := now.sec + timer } (session.master.thread tt).sands
  | _ => True

end

/-- What can be reached by operations of some kind. -/
inductive Reachable (permitted : ThreadSession → ThreadOp → Prop) : ThreadSession → Prop where
  | create : Reachable permitted {}
  | step {session after : ThreadSession} (op : ThreadOp) :
    Reachable permitted session → permitted session op →
    session.step op = some after → Reachable permitted after

/-- The lists, the types, the descriptors and the timers agree, and no thread is returned that it
  should not be. -/
structure Consistent (session : ThreadSession) : Prop where
  lists : ∃ lists : ThreadType → List ThreadAddr, session.master.lists.Filed lists ∧
    (∀ list t, t ∈ lists list ↔ t < session.master.alloc ∧ (session.master.thread t).type = list) ∧
    (∀ fd, (lists .read).countP (fun t => (session.master.thread t).fd = fd) =
      if session.master.readfd.isset fd then 1 else 0) ∧
    (∀ fd, (lists .write).countP (fun t => (session.master.thread t).fd = fd) =
      if session.master.writefd.isset fd then 1 else 0) ∧
    (lists .timer).Pairwise fun t later =>
      (session.master.thread t).sands.Le (session.master.thread later).sands
  owed : owed session.log = session.master.live
  orderly : Orderly session.log

/-- What every step keeps. -/
structure Sound (session : ThreadSession) : Prop where
  kept : ∃ lists, session.master.Kept lists none
  owed : ThreadEvent.owed session.log = session.master.live
  orderly : Orderly session.log

namespace Sound
variable {session : ThreadSession}

theorem create : Sound {} := by
  refine ⟨⟨fun _ => [], ⟨fun list => ?_, nofun⟩, ?_, ?_, Pairwise.nil⟩, rfl, trivial⟩
  · exact ⟨rfl, rfl, rfl, fun split => by simp at split, fun split => by simp at split, nodup_nil⟩
  · exact iff_of_false not_mem_nil fun claimed => Nat.not_lt_zero _ claimed.2.1
  · rintro list (rfl | rfl) fd <;> exact (congrArg Bool.toNat FdSet.isset_empty).symm

theorem dropped {log gone after} (orderly : Orderly log)
    (drops : Dropped (ThreadEvent.owed log) gone after) :
    Orderly ((gone.map .cancelled).reverse ++ log) ∧
    ThreadEvent.owed ((gone.map .cancelled).reverse ++ log) = after := by
  induction gone generalizing log with
  | nil => exact ⟨orderly, drops.symm⟩
  | cons t gone ih =>
    rw [map_cons, reverse_cons, append_assoc]
    exact @ih (.cancelled t :: log) ⟨drops.1, orderly⟩ drops.2

section
variable (sound : session.Sound)
include sound

theorem added {m t job} (added : Added session.master m t job) :
    (session.added job (m, some t)).Sound := by
  refine ⟨added.kept, ?_, ?_, sound.orderly⟩
  · refine Eq.trans ?_ added.live.symm
    rw [← sound.owed]
    rfl
  · rw [sound.owed]
    exact added.idle

theorem addedFd {list} (watched : list = .read ∨ list = .write) (func arg : Nat) {fd : Fd}
    (within : fd.Within) :
    ∃ after, (session.master.threadAddFd list func arg fd).map (session.added ⟨func, arg, .fd fd⟩) =
      some after ∧
      after.Sound := by
  obtain ⟨lists, kept⟩ := sound.kept
  cases free : (session.master.fdset list).isset fd with
  | true =>
    have refused : session.master.threadAddFd list func arg fd = some (session.master, none) :=
      (if_neg (not_not_intro within)).trans (if_pos free)
    exact ⟨session, by rw [refused]; rfl, sound⟩
  | false =>
    obtain ⟨added, t, given, adds⟩ := kept.addFd watched func arg within free
    exact ⟨_, by rw [given]; rfl, sound.added adds⟩

theorem fetched {fetch} (fetched : session.master.Fetched fetch) :
    (session.fetched fetch).Sound := by
  cases fetch with
  | waiting m | null m => exact ⟨fetched.1, sound.owed.trans fetched.2.symm, sound.orderly⟩
  | thread m t fetch =>
    obtain ⟨kept, job, live⟩ := fetched
    refine ⟨kept, ?_, ?_, sound.orderly⟩
    · refine Eq.trans ?_ live.symm
      rw [← sound.owed]
      rfl
    · rw [sound.owed]
      exact job

theorem step {op} (callable : session.Callable op) (timely : session.Timely op) :
    ∃ after, session.step op = some after ∧ after.Sound := by
  obtain ⟨lists, kept⟩ := sound.kept
  cases op with
  | addRead func arg fd => exact sound.addedFd (.inl rfl) func arg callable
  | addWrite func arg fd => exact sound.addedFd (.inr rfl) func arg callable
  | addTimer func arg timer now =>
    refine ⟨_, rfl, sound.added (kept.addTimer func arg timer now fun tt member => ?_)⟩
    exact timely tt (kept.member.mp member).2.1 (kept.member.mp member).2.2
  | addEvent func arg val => exact ⟨_, rfl, sound.added (kept.addEvent func arg val)⟩
  | cancel t =>
    obtain ⟨done, run, kept', live⟩ := kept.cancel callable
    refine ⟨⟨done, .cancelled t :: session.log⟩, by
      rw [ThreadSession.step, run]; rfl, kept', ?_, ?_, sound.orderly⟩
    · rw [live, ← sound.owed]
      rfl
    · rw [sound.owed]
      exact callable
  | cancelEvent arg =>
    obtain ⟨done, gone, run, kept', drops⟩ := kept.cancelEvent arg
    rw [← sound.owed] at drops
    obtain ⟨orderly, owed⟩ := dropped sound.orderly drops
    exact ⟨⟨done, _⟩, by rw [ThreadSession.step, run]; rfl, kept', owed, orderly⟩
  | fetch rounds =>
    obtain ⟨fetch, run, result⟩ := kept.fetch rounds
    exact ⟨session.fetched fetch, by rw [ThreadSession.step, run]; rfl, sound.fetched result⟩

theorem consistent : session.Consistent := by
  obtain ⟨lists, kept⟩ := sound.kept
  have bits : ∀ bit : Bool, bit.toNat = if bit then 1 else 0 := by decide
  refine ⟨⟨lists, kept.filed, fun list t => ?_, fun fd => ?_, fun fd => ?_, kept.sorted⟩,
    sound.owed, sound.orderly⟩
  · rw [kept.member]
    exact and_iff_right nofun
  · rw [kept.watched (.inl rfl), bits]
    rfl
  · rw [kept.watched (.inr rfl), bits]
    rfl

end
end Sound

/-- Whatever is added, cancelled and fetched: the lists follow the types, the descriptors and the
times, each thread is returned or cancelled once at most for each time it is added, and no assertion
fails. -/
theorem thread_lists_consistent {session : ThreadSession}
    (reachable : Reachable (fun session op => session.Callable op ∧ session.Timely op) session) :
    session.Consistent ∧ ∀ op, session.Callable op → session.Timely op →
    (session.step op).isSome := by
  have sound : session.Sound := by
    induction reachable with
    | create => exact .create
    | step op _ permitted result ih =>
      obtain ⟨after, run, sound⟩ := ih.step permitted.1 permitted.2
      cases run.symm.trans result
      exact sound
  refine ⟨sound.consistent, fun op callable timely => ?_⟩
  obtain ⟨after, run, -⟩ := sound.step callable timely
  rw [run]
  rfl

/-- A timer runs and a descriptor is watched; the descriptor becomes ready, and then the timer
  expires. -/
theorem timer_returned_consistent : ∃ session : ThreadSession,
    session.log = [.returned 0 ⟨7, 8, .sands ⟨105, 0⟩⟩, .returned 1 ⟨1, 2, .fd 3⟩,
      .added 1 ⟨1, 2, .fd 3⟩, .added 0 ⟨7, 8, .sands ⟨105, 0⟩⟩] ∧ session.Consistent :=
  ⟨_, rfl, (thread_lists_consistent (.step (.fetch [{ now := ⟨105, 0⟩, num := 0 }])
    (.step (.fetch [{ now := ⟨101, 0⟩, num := 1, readfd := fun n => n = 3 }])
      (.step (.addRead 1 2 3)
        (.step (.addTimer 7 8 5 ⟨100, 0⟩) .create ⟨trivial, nofun⟩ rfl)
        ⟨(by decide : Fd.Within 3), trivial⟩ rfl)
      ⟨trivial, trivial⟩ rfl)
    ⟨trivial, trivial⟩ rfl)).1⟩

/-- The seconds between two timers do not fit into an `int`, and the later one comes first. -/
theorem thread_timer_unsorted : ¬ ∀ session :
    ThreadSession, Reachable Callable session → session.Consistent := by
  intro all
  have first : Reachable Callable _ := .step (.addTimer 0 0 0 ⟨0, 0⟩) .create trivial rfl
  have second : Reachable Callable _ := .step (.addTimer 0 0 (2 ^ 31) ⟨0, 0⟩) first trivial rfl
  obtain ⟨lists, filed, members, -, -, sorted⟩ := (all _ second).lists
  have head := (filed.holds .timer).head.symm.trans (by rfl : _ = some 1)
  have earlier : 0 ∈ lists .timer := (members .timer 0).mpr (by decide +kernel)
  cases nodes : lists .timer with
  | nil =>
    rw [nodes] at head
    cases head
  | cons t rest =>
    rw [nodes] at head sorted earlier
    cases head
    have later : 0 ∈ rest := (mem_cons.mp earlier).resolve_left nofun
    exact absurd ((pairwise_cons.mp sorted).1 0 later) (by decide +kernel)

end ThreadSession
end Zebra
