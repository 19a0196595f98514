import TinyWebServer.Net.ConnectionTimers
import TinyWebServer.Net.Server

/-!
# What every move of the server keeps

The table holds open connections only, two open connections never share a descriptor, and each
task of a wheel belongs to an open connection of its loop.
-/

namespace TinyWebServer

namespace Server

/-- What holds of a connection object at all times. -/
structure Hosts (id : ℕ) (h : Hosted) : Prop where
  id_eq : h.conn.id = id
  fd_nonneg : 0 ≤ h.conn.fd
  hasCloseCallback : h.conn.hasCloseCallback = true
  waiting : h.established = false → h.conn.state = .kConnecting ∨ h.conn.state = .kClosed

/-- The task is that of an open connection of the loop. -/
def Owned (s : Server) (loop : ℕ) (fd : ℤ) (callback : TimerCallback) : Prop :=
  ∃ h, s.hosted[callback.conn]? = some h ∧ h.loop = loop ∧ h.conn.fd = fd ∧
    h.conn.state ≠ .kClosed

structure Inv (s : Server) : Prop where
  hosts : ∀ id h, s.hosted[id]? = some h → Hosts id h
  known : ∀ fd id, s.connections fd = some id →
    ∃ h, s.hosted[id]? = some h ∧ h.conn.fd = fd ∧ h.conn.state ≠ .kClosed
  apart : ∀ (id id' : ℕ) (h h' : Hosted), s.hosted[id]? = some h → s.hosted[id']? = some h' →
    h.conn.state ≠ .kClosed → h'.conn.state ≠ .kClosed → h.conn.fd = h'.conn.fd → id = id'
  wheels : ∀ loop, (s.loops loop).timerWheel.Sound (s.Owned loop)

/-- No thread is inside a wheel. -/
def Free (s : Server) : Prop := ∀ loop, (s.loops loop).timerWheel.mutexHeld = false

lemma inv_new (config : Option LimitsOptions) (kernel : ℕ → WriteOutcome) :
    (new config kernel).Inv where
  hosts := by simp [new]
  known := by simp [new]
  apart := by simp [new]
  wheels := fun _ => TimerWheel.sound_new

lemma free_new (config : Option LimitsOptions) (kernel : ℕ → WriteOutcome) :
    (new config kernel).Free := fun _ => rfl

/-! ### The wheel of a loop -/

@[simp] lemma timerWheel_withWheel (s : Server) (loop : ℕ) (wheel : TimerWheel TimerCallback) :
    ((s.withWheel loop wheel).loops loop).timerWheel = wheel := by
  simp [withWheel]

lemma loops_withWheel_of_ne {loop loop' : ℕ} (hne : loop' ≠ loop) (s : Server)
    (wheel : TimerWheel TimerCallback) :
    (s.withWheel loop wheel).loops loop' = s.loops loop' := Function.update_of_ne hne _ _

@[simp] lemma registeredFds_withWheel (s : Server) (loop loop' : ℕ)
    (wheel : TimerWheel TimerCallback) :
    ((s.withWheel loop wheel).loops loop').registeredFds = (s.loops loop').registeredFds := by
  by_cases hsame : loop' = loop
  · subst hsame
    simp [withWheel]
  · rw [loops_withWheel_of_ne hsame]

@[simp] lemma withWheel_withWheel (s : Server) (loop : ℕ) (wheel wheel' : TimerWheel TimerCallback) :
    (s.withWheel loop wheel).withWheel loop wheel' = s.withWheel loop wheel' := by
  simp [withWheel]

@[simp] lemma withWheel_self (s : Server) (loop : ℕ) :
    s.withWheel loop (s.loops loop).timerWheel = s := by
  simp [withWheel]

lemma Inv.withWheel {s : Server} (h : s.Inv) (loop : ℕ) {wheel : TimerWheel TimerCallback}
    (hsound : wheel.Sound (s.Owned loop)) : (s.withWheel loop wheel).Inv where
  hosts := h.hosts
  known := h.known
  apart := h.apart
  wheels := by
    intro loop'
    by_cases hsame : loop' = loop
    · subst hsame
      rw [timerWheel_withWheel]
      exact hsound
    · rw [loops_withWheel_of_ne hsame]
      exact h.wheels loop'

/-! ### One connection -/

variable {s : Server} {id : ℕ} {host host' : Hosted} {t : Session}
  {sets : ℤ → TimeoutType → Prop} {late : Prop}

lemma hosted_keep (hhost : s.hosted[id]? = some host) (host' : Hosted) (t : Session) (id' : ℕ) :
    (s.keep id host' t).hosted[id']? =
      if id = id' then some { host' with conn := t.conn } else s.hosted[id']? := by
  obtain ⟨hlt, -⟩ := List.getElem?_eq_some_iff.mp hhost
  simp only [keep, List.getElem?_set, if_pos hlt]

lemma loops_keep (s : Server) (id : ℕ) (host : Hosted) (t : Session) :
    (s.keep id host t).loops host.loop = t.loop := Function.update_self ..

lemma loops_keep_of_ne {loop : ℕ} (hne : loop ≠ host.loop) (s : Server) (id : ℕ) (t : Session) :
    (s.keep id host t).loops loop = s.loops loop := Function.update_of_ne hne _ _

lemma connections_keep {fd : ℤ} {id' : ℕ} (h : (s.keep id host' t).connections fd = some id') :
    s.connections fd = some id' ∧ .closed fd ∉ t.trace := by
  simp only [keep] at h
  split_ifs at h with hclosed
  refine ⟨h, ?_⟩
  simpa using hclosed

/-- The same object in an earlier state. -/
structure Stems (h h' : Hosted) : Prop where
  id : h'.conn.id = h.conn.id
  fd : h'.conn.fd = h.conn.fd
  loop : h'.loop = h.loop
  hasCloseCallback : h'.conn.hasCloseCallback = h.conn.hasCloseCallback
  stays : h.conn.state = .kClosed → h'.conn.state = .kClosed

lemma Stems.refl (h : Hosted) : Stems h h := ⟨rfl, rfl, rfl, rfl, fun hclosed => hclosed⟩

lemma Stems.trans {h h' h'' : Hosted} (hstem : Stems h h') (hstem' : Stems h' h'') :
    Stems h h'' :=
  ⟨hstem'.id.trans hstem.id, hstem'.fd.trans hstem.fd, hstem'.loop.trans hstem.loop,
    hstem'.hasCloseCallback.trans hstem.hasCloseCallback,
    fun hclosed => hstem'.stays (hstem.stays hclosed)⟩

lemma stems_keep (hhost : s.hosted[id]? = some host) (hserves : (s.session host).Serves t)
    (hloop : host'.loop = host.loop) {id' : ℕ} {h' : Hosted}
    (h : (s.keep id host' t).hosted[id']? = some h') :
    ∃ h, s.hosted[id']? = some h ∧ Stems h h' := by
  rw [hosted_keep hhost] at h
  split_ifs at h with hid
  · cases h
    subst hid
    exact ⟨host, hhost, hserves.id, hserves.fd, hloop, hserves.hasCloseCallback, hserves.stays⟩
  · exact ⟨h', h, Stems.refl h'⟩

/-- A function of one connection keeps the invariant if it leaves the wheel in order, and without
a timer of the connection in case it has closed it. -/
lemma Inv.keep (h : s.Inv) (hhost : s.hosted[id]? = some host)
    (hserves : (s.session host).Serves t) (hloop : host'.loop = host.loop)
    (hwaiting : host'.established = false →
      t.conn.state = .kConnecting ∨ t.conn.state = .kClosed)
    {wheel : TimerWheel TimerCallback} (hsound : wheel.Sound (s.Owned host.loop))
    (hleft : host.conn.state ≠ .kClosed → t.conn.state = .kClosed →
      wheel.Vacant host.conn.fd) :
    ((s.keep id host' t).withWheel host.loop wheel).Inv := by
  have hhosts := h.hosts id host hhost
  have hkept : ∀ id', ((s.keep id host' t).withWheel host.loop wheel).hosted[id']? =
      if id = id' then some { host' with conn := t.conn } else s.hosted[id']? :=
    hosted_keep hhost host' t
  have hstems : ∀ {id' h'}, ((s.keep id host' t).withWheel host.loop wheel).hosted[id']? = some h' →
      ∃ h, s.hosted[id']? = some h ∧ Stems h h' := fun h => stems_keep hhost hserves hloop h
  constructor
  · intro id' h' hid'
    rw [hkept] at hid'
    split_ifs at hid' with hid
    · cases hid'
      subst hid
      refine ⟨hserves.id.trans hhosts.id_eq, ?_, hserves.hasCloseCallback.trans
        hhosts.hasCloseCallback, hwaiting⟩
      exact hserves.fd.symm ▸ hhosts.fd_nonneg
    · exact h.hosts id' h' hid'
  · intro fd id' hknown
    have hentry : (s.keep id host' t).connections fd = some id' := hknown
    obtain ⟨hknown, hquiet⟩ := connections_keep hentry
    obtain ⟨h₀, hid', hfd, hopen⟩ := h.known fd id' hknown
    rw [hkept]
    split_ifs with hid
    · subst hid
      cases hhost.symm.trans hid'
      refine ⟨_, rfl, hserves.fd.trans hfd, fun hclosed => hquiet ?_⟩
      obtain ⟨events, htrace, -, hcalled⟩ := hserves.trace
      rw [htrace, ← hfd]
      exact List.mem_append_right _ ((hcalled hhosts.hasCloseCallback hopen).mpr hclosed)
    · exact ⟨h₀, hid', hfd, hopen⟩
  · intro id₁ id₂ h₁ h₂ hid₁ hid₂ hopen₁ hopen₂ hfd
    obtain ⟨h₁', hid₁', hstem₁⟩ := hstems hid₁
    obtain ⟨h₂', hid₂', hstem₂⟩ := hstems hid₂
    refine h.apart id₁ id₂ h₁' h₂' hid₁' hid₂' (fun hclosed => hopen₁ (hstem₁.stays hclosed))
      (fun hclosed => hopen₂ (hstem₂.stays hclosed)) ?_
    rw [← hstem₁.fd, ← hstem₂.fd, hfd]
  · intro loop
    by_cases hsame : loop = host.loop
    · subst hsame
      rw [timerWheel_withWheel]
      refine hsound.of_tasks fun i task htask => ?_
      obtain ⟨owner, howner, hownerLoop, hownerFd, hopen⟩ := hsound.inv.task_ok i task htask
      by_cases hid : id = task.callback.conn
      · cases (hid ▸ hhost).symm.trans howner
        refine ⟨{ host' with conn := t.conn }, ?_, hloop, hserves.fd.trans hownerFd, ?_⟩
        · rw [hkept, if_pos hid]
        · exact fun hclosed => (hleft hopen hclosed).2 i task htask hownerFd.symm
      · exact ⟨owner, by rw [hkept, if_neg hid]; exact howner, hownerLoop, hownerFd, hopen⟩
    · rw [loops_withWheel_of_ne hsame, loops_keep_of_ne (hloop ▸ hsame)]
      refine (h.wheels loop).of_tasks fun i task htask => ?_
      obtain ⟨owner, howner, hownerLoop, hownerFd, hopen⟩ := (h.wheels loop).inv.task_ok i task htask
      have hid : id ≠ task.callback.conn := by
        rintro hid
        cases (hid ▸ hhost).symm.trans howner
        exact hsame hownerLoop.symm
      exact ⟨owner, by rw [hkept, if_neg hid]; exact howner, hownerLoop, hownerFd, hopen⟩

/-- The session of an open connection finds its wheel in order. -/
lemma Inv.ready (h : s.Inv) (hfree : s.Free) (hhost : s.hosted[id]? = some host)
    (hopen : host.conn.state ≠ .kClosed) : (s.session host).Ready (s.Owned host.loop) := by
  have hhosts := h.hosts id host hhost
  refine ⟨hhosts.fd_nonneg, h.wheels host.loop, hfree host.loop, fun timeoutType => ?_⟩
  refine ⟨host, ?_, rfl, rfl, hopen⟩
  change s.hosted[host.conn.id]? = _
  rw [hhosts.id_eq, hhost]

lemma keep_withWheel (hloop : host'.loop = host.loop) :
    (s.keep id host' t).withWheel host.loop t.loop.timerWheel = s.keep id host' t := by
  rw [← loops_keep s id host' t, hloop, withWheel_self]

lemma Free.keep (hfree : s.Free) (ht : t.loop.timerWheel.mutexHeld = false) :
    (s.keep id host' t).Free := by
  intro loop
  by_cases hsame : loop = host'.loop
  · rw [hsame, loops_keep]
    exact ht
  · rw [loops_keep_of_ne hsame]
    exact hfree loop

/-- The acts of an open connection keep the invariant. -/
lemma Inv.keep_acts (h : s.Inv) (hfree : s.Free) (hhost : s.hosted[id]? = some host)
    (hopen : host.conn.state ≠ .kClosed) (hacts : Session.Acts sets late (s.session host) t)
    (hloop : host'.loop = host.loop)
    (hwaiting : host'.established = false →
      t.conn.state = .kConnecting ∨ t.conn.state = .kClosed) :
    (s.keep id host' t).Inv ∧ (s.keep id host' t).Free := by
  have hready := h.ready hfree hhost hopen
  have ht := hacts.ready hready
  have hleft := hacts.left hready fun hclosed => absurd hclosed hopen
  have hfd : t.conn.fd = host.conn.fd := hacts.serves.fd
  refine ⟨?_, hfree.keep ht.free⟩
  rw [← keep_withWheel hloop]
  refine h.keep hhost hacts.serves hloop hwaiting ht.wheel fun _ hclosed => ?_
  rw [← hfd]
  exact hleft hclosed

/-! ### The moves -/

/-- The connection that `HandleAccept` makes. -/
def accepted (s : Server) (fd : ℤ) (loop : ℕ) : Hosted :=
  ⟨{ Connection.new s.hosted.length fd s.config true with hasCloseCallback := true }, loop, false⟩

lemma hosted_accept {fd : ℤ} {loop id : ℕ} {h : Hosted}
    (hid : (s.accept fd loop).hosted[id]? = some h) :
    s.hosted[id]? = some h ∨ (id = s.hosted.length ∧ h = s.accepted fd loop) := by
  change (s.hosted ++ [s.accepted fd loop])[id]? = some h at hid
  rw [List.getElem?_append, List.getElem?_singleton] at hid
  split_ifs at hid with hlt hzero
  · exact .inl hid
  · exact .inr ⟨by omega, (Option.some.inj hid).symm⟩

lemma hosted_accept_of_some {id : ℕ} {h : Hosted} (hid : s.hosted[id]? = some h) (fd : ℤ)
    (loop : ℕ) : (s.accept fd loop).hosted[id]? = some h := by
  change (s.hosted ++ [s.accepted fd loop])[id]? = some h
  rw [List.getElem?_append_left (List.getElem?_eq_some_iff.mp hid).1, hid]

/-- A descriptor that the kernel gives is that of no open connection. -/
lemma fd_ne_of_unused {fd : ℤ} (hunused : s.hosted.all (fun h => h.released || h.conn.fd ≠ fd))
    {id : ℕ} {h : Hosted} (hid : s.hosted[id]? = some h) (hopen : h.conn.state ≠ .kClosed) :
    h.conn.fd ≠ fd := by
  have hall := List.all_eq_true.mp hunused h (List.mem_of_getElem? hid)
  simpa [Hosted.released, hopen] using hall

lemma inv_accept (h : s.Inv) {fd : ℤ} (hfd : 0 ≤ fd)
    (hunused : s.hosted.all (fun h => h.released || h.conn.fd ≠ fd)) (loop : ℕ) :
    (s.accept fd loop).Inv := by
  constructor
  · intro id host hid
    rcases hosted_accept hid with hold | ⟨rfl, rfl⟩
    · exact h.hosts id host hold
    · exact ⟨rfl, hfd, rfl, fun _ => .inl rfl⟩
  · intro fd' id hknown
    change Function.update s.connections fd (some s.hosted.length) fd' = some id at hknown
    by_cases hsame : fd' = fd
    · subst hsame
      rw [Function.update_self] at hknown
      cases hknown
      refine ⟨s.accepted fd' loop, ?_, rfl, ?_⟩
      · exact List.getElem?_concat_length
      · exact ConnState.noConfusion
    · rw [Function.update_of_ne hsame] at hknown
      obtain ⟨host, hid, hhost⟩ := h.known fd' id hknown
      exact ⟨host, hosted_accept_of_some hid fd loop, hhost⟩
  · intro id id' host host' hid hid' hopen hopen' heq
    rcases hosted_accept hid with hold | ⟨rfl, rfl⟩
    · rcases hosted_accept hid' with hold' | ⟨rfl, rfl⟩
      · exact h.apart id id' host host' hold hold' hopen hopen' heq
      · exact absurd heq (fd_ne_of_unused hunused hold hopen)
    · rcases hosted_accept hid' with hold' | ⟨rfl, rfl⟩
      · exact absurd heq.symm (fd_ne_of_unused hunused hold' hopen')
      · rfl
  · intro loop'
    refine (h.wheels loop').of_tasks fun i task htask => ?_
    obtain ⟨owner, howner, hown⟩ := (h.wheels loop').inv.task_ok i task htask
    exact ⟨owner, hosted_accept_of_some howner fd loop, hown⟩

@[simp] lemma timerWheel_removeEvent (s : Server) (loop : ℕ) (fd : ℤ) (loop' : ℕ) :
    ((s.removeEvent loop fd).loops loop').timerWheel = (s.loops loop').timerWheel := by
  by_cases hsame : loop' = loop
  · simp [removeEvent, hsame, EventLoop.removeEvent]
  · simp [removeEvent, hsame]

lemma inv_removeEvent (h : s.Inv) (loop : ℕ) (fd : ℤ) : (s.removeEvent loop fd).Inv where
  hosts := h.hosts
  known := h.known
  apart := h.apart
  wheels := by
    intro loop'
    rw [timerWheel_removeEvent]
    exact h.wheels loop'

lemma free_removeEvent (hfree : s.Free) (loop : ℕ) (fd : ℤ) : (s.removeEvent loop fd).Free := by
  intro loop'
  rw [timerWheel_removeEvent]
  exact hfree loop'

lemma inv_establish (h : s.Inv) (hfree : s.Free) (hhost : s.hosted[id]? = some host)
    (hwaiting : host.established = false) :
    (s.establish id host).Inv ∧ (s.establish id host).Free := by
  rcases (h.hosts id host hhost).waiting hwaiting with hconnecting | hclosed
  · have hacts : Session.Acts (fun _ _ => True) True (s.session host) _ :=
      Session.acts_connectEstablished hconnecting
    exact h.keep_acts hfree hhost (by simp [hconnecting]) hacts rfl (by simp)
  · have hacts : Session.Acts (fun _ _ => True) True (s.session host) _ :=
      Session.acts_connectEstablished_of_closed hclosed trivial
    have hwheel : (s.session host).connectEstablished.loop.timerWheel =
        (s.loops host.loop).timerWheel := by
      rw [Session.connectEstablished_of_closed hclosed]
      rfl
    refine ⟨?_, hfree.keep (hwheel ▸ hfree host.loop)⟩
    have hself : (s.establish id host).withWheel host.loop
        (s.session host).connectEstablished.loop.timerWheel = s.establish id host :=
      keep_withWheel rfl
    have hloop : ({ host with established := true } : Hosted).loop = host.loop := rfl
    rw [← hself]
    refine h.keep hhost hacts.serves hloop ?_ ?_ fun hopen => absurd hclosed hopen
    · rintro ⟨⟩
    · rw [hwheel]
      exact h.wheels host.loop

/-! ### Ticks -/

/-- The loop over the tasks of a slot: the tasks to come belong to open connections on different
descriptors. -/
structure Ticking (loop : ℕ) (R : Server → Prop) (rest : List (TimerTask TimerCallback))
    (p : TimerWheel TimerCallback × Server) : Prop where
  inv : (p.2.withWheel loop p.1).Inv
  held : p.1.mutexHeld = true
  others : ∀ loop', loop' ≠ loop → (p.2.loops loop').timerWheel.mutexHeld = false
  distinct : (rest.map (·.fd)).Nodup
  tasks : ∀ task ∈ rest, p.2.Owned loop task.fd task.callback ∧ task.fd ∈ p.1.timers
  holds : R (p.2.withWheel loop p.1)

/-- What a change of the wheel keeps that leaves every timer where it is. -/
def KeptByWheel (loop : ℕ) (R : Server → Prop) : Prop :=
  ∀ (u : Server) (wheel : TimerWheel TimerCallback), u.Inv → wheel.Sound (u.Owned loop) →
    (∀ fd, fd ∈ wheel.timers ↔ fd ∈ (u.loops loop).timerWheel.timers) → R u →
      R (u.withWheel loop wheel)

/-- What the callback of an expired timer keeps. -/
def KeptByExpiry (loop : ℕ) (R : Server → Prop) : Prop :=
  ∀ (u : Server) (id : ℕ) (host : Hosted) (timeoutType : TimeoutType)
    (wheel : TimerWheel TimerCallback), u.Inv → u.hosted[id]? = some host → host.loop = loop →
    host.conn.state ≠ .kClosed → wheel.Vacant host.conn.fd → (∀ fd, fd ≠ host.conn.fd →
      (fd ∈ wheel.timers ↔ fd ∈ (u.loops loop).timerWheel.timers)) → R u →
      R ((u.keep id host ((u.session host).onTimeout timeoutType)).withWheel loop wheel)

section tick

variable {loop : ℕ} {R : Server → Prop}

lemma Ticking.moveOn (hwheel : KeptByWheel loop R) {task : TimerTask TimerCallback}
    {rest : List (TimerTask TimerCallback)} {p : TimerWheel TimerCallback × Server}
    (h : Ticking loop R (task :: rest) p) (slot : ℕ) :
    Ticking loop R rest (p.1.moveOn slot task, p.2) := by
  obtain ⟨howned, hmem⟩ := h.tasks task (List.mem_cons_self ..)
  have hsound : p.1.Sound (p.2.Owned loop) := by
    have hwheels := h.inv.wheels loop
    rwa [timerWheel_withWheel] at hwheels
  have htimers := TimerWheel.mem_timers_moveOn hsound.inv slot hmem
  have hmoved : p.2.withWheel loop (p.1.moveOn slot task) =
      (p.2.withWheel loop p.1).withWheel loop (p.1.moveOn slot task) := by
    rw [withWheel_withWheel]
  constructor
  · rw [hmoved]
    exact h.inv.withWheel loop (hsound.moveOn slot howned)
  · exact (TimerWheel.mutexHeld_moveOn hsound.inv slot task).trans h.held
  · exact h.others
  · exact h.distinct.of_cons
  · intro task' htask'
    obtain ⟨howned', hmem'⟩ := h.tasks task' (List.mem_cons_of_mem _ htask')
    exact ⟨howned', (htimers task'.fd).mpr hmem'⟩
  · rw [hmoved]
    refine hwheel _ _ h.inv (hsound.moveOn slot howned) (fun fd => ?_) h.holds
    rw [timerWheel_withWheel]
    exact htimers fd

lemma Ticking.expire (hexpire : KeptByExpiry loop R) {task : TimerTask TimerCallback}
    {rest : List (TimerTask TimerCallback)} {p : TimerWheel TimerCallback × Server}
    (h : Ticking loop R (task :: rest) p) :
    Ticking loop R rest ((Server.expire loop task p).1.retire task, (Server.expire loop task p).2) := by
  obtain ⟨⟨host, hhost, hloop, hfd, hopen⟩, -⟩ := h.tasks task (List.mem_cons_self ..)
  subst hloop
  let u := p.2.withWheel host.loop p.1
  let t := (u.session host).onTimeout task.callback.timeoutType
  have hu : u.hosted[task.callback.conn]? = some host := hhost
  have hsound : p.1.Sound (u.Owned host.loop) := by
    have hwheels := h.inv.wheels host.loop
    rwa [timerWheel_withWheel] at hwheels
  have hact : Session.Act (fun _ _ => True) True (u.session host) t := .expire _
  -- The callback finds the mutex taken, so that it leaves the wheel as it is.
  obtain ⟨-, -, reentered, hheld⟩ := Session.governed_onTimeout
    (keptByTimers_held (u.session host).conn.fd (u.session host).conn.id h.held)
    ⟨rfl, rfl, p.1.reentered, timerWheel_withWheel ..⟩ task.callback.timeoutType
  have hresult : Server.expire host.loop task p =
      (t.loop.timerWheel, u.keep task.callback.conn host t) := by
    have hfound : (p.2.withWheel host.loop p.1).hosted[task.callback.conn]? = some host := hhost
    have hloop : (u.keep task.callback.conn host t).loops host.loop = t.loop := loops_keep ..
    simp only [Server.expire, hfound]
    exact Prod.ext (congrArg EventLoop.timerWheel hloop) rfl
  have hretired : (t.loop.timerWheel.retire task).Sound (u.Owned host.loop) := by
    rw [hheld]
    exact (hsound.flags _ reentered).retire task
  have htimers : ∀ fd, fd ≠ task.fd → (fd ∈ (t.loop.timerWheel.retire task).timers ↔
      fd ∈ p.1.timers) := by
    intro fd hne
    rw [TimerWheel.mem_timers_retire hne, hheld]
  rw [hresult]
  have hvacant : (t.loop.timerWheel.retire task).Vacant host.conn.fd :=
    hfd ▸ TimerWheel.vacant_retire task _
  have hkept := h.inv.keep hu hact.serves rfl
    (fun hwaiting => .inr (Session.state_onTimeout _ _)) hretired fun _ _ => hvacant
  have hloops : ∀ loop', loop' ≠ host.loop →
      (u.keep task.callback.conn host t).loops loop' = p.2.loops loop' := by
    intro loop' hne
    rw [loops_keep_of_ne hne]
    exact loops_withWheel_of_ne hne _ _
  constructor
  · exact hkept
  · change t.loop.timerWheel.mutexHeld = true
    rw [hheld]
    exact h.held
  · intro loop' hne
    rw [hloops loop' hne]
    exact h.others loop' hne
  · exact h.distinct.of_cons
  · intro task' htask'
    obtain ⟨⟨host', hhost', hloop', hfd', hopen'⟩, hmem'⟩ :=
      h.tasks task' (List.mem_cons_of_mem _ htask')
    have hne : task'.fd ≠ task.fd := by
      intro heq
      exact (List.nodup_cons.mp h.distinct).1 (List.mem_map.mpr ⟨task', htask', heq⟩)
    have hid : task.callback.conn ≠ task'.callback.conn := by
      intro heq
      cases (heq ▸ hhost).symm.trans hhost'
      exact hne (hfd'.symm.trans hfd)
    refine ⟨⟨host', ?_, hloop', hfd', hopen'⟩, (htimers _ hne).mpr hmem'⟩
    rw [hosted_keep hu, if_neg hid]
    exact hhost'
  · refine hexpire u _ host _ _ h.inv hu rfl hopen hvacant (fun fd hne => ?_) h.holds
    rw [htimers fd (hfd ▸ hne), timerWheel_withWheel]

/-- What the changes of the wheel and the closing of expired connections keep, a tick keeps. -/
lemma tick_induction (hwheel : KeptByWheel loop R) (hexpire : KeptByExpiry loop R) {s : Server}
    (h : s.Inv) (hfree : s.Free) (hs : R s) :
    R (s.tick loop) ∧ (s.tick loop).Inv ∧ (s.tick loop).Free := by
  have hsound := h.wheels loop
  let slot := (s.loops loop).timerWheel.currentSlot
  let held : TimerWheel TimerCallback := { (s.loops loop).timerWheel with mutexHeld := true }
  have hheld : held.Sound (s.Owned loop) := hsound.flags true _
  have hstart : Ticking loop R ((s.loops loop).timerWheel.wheel slot) (held, s) := by
    refine ⟨h.withWheel loop hheld, rfl, fun loop' _ => hfree loop', hsound.distinct slot, ?_,
      hwheel s held h hheld (fun _ => Iff.rfl) hs⟩
    intro task htask
    exact ⟨hsound.inv.task_ok slot task htask, hsound.inv.mem_timers slot task htask⟩
  let p := (TimerWheel.processTasks (Server.expire loop) slot
    ((s.loops loop).timerWheel.wheel slot) (held, s)).2
  have hend : Ticking loop R [] p := TimerWheel.processTasks_rest
    (fun task rest p _ hp => hp.moveOn hwheel slot) (fun task rest p _ hp => hp.expire hexpire) hstart
  let advanced : TimerWheel TimerCallback :=
    { p.1 with currentSlot := (p.1.currentSlot + 1) % p.1.wheelSize, mutexHeld := false }
  have htick : s.tick loop = (p.2.withWheel loop p.1).withWheel loop advanced := by
    rw [withWheel_withWheel, tick, TimerWheel.tick_eq (Server.expire loop)
      (s := ((s.loops loop).timerWheel, s)) hsound.inv (hfree loop)]
  have hlast : p.1.Sound ((p.2.withWheel loop p.1).Owned loop) := by
    have hwheels := hend.inv.wheels loop
    rwa [timerWheel_withWheel] at hwheels
  have hadvanced : advanced.Sound ((p.2.withWheel loop p.1).Owned loop) := by
    obtain ⟨⟨h₁, h₂, -, h₄, h₅, h₆⟩, hdistinct, hsize⟩ := hlast
    exact ⟨⟨h₁, h₂, Nat.mod_lt _ h₂, h₄, h₅, h₆⟩, hdistinct, hsize⟩
  rw [htick]
  refine ⟨hwheel _ _ hend.inv hadvanced (fun fd => ?_) hend.holds,
    hend.inv.withWheel loop hadvanced, fun loop' => ?_⟩
  · rw [timerWheel_withWheel]
  · by_cases hsame : loop' = loop
    · subst hsame
      rw [timerWheel_withWheel]
    · rw [loops_withWheel_of_ne hsame, loops_withWheel_of_ne hsame]
      exact hend.others loop' hsame

end tick

/-! ### Runs -/

variable (env : ServerEnv)

/-- What a handler needs to be a sequence of acts. -/
def Permits (sets : ℤ → TimeoutType → Prop) (late : Prop) (s : Session) : Handler → Prop
  | .read reads => (s.readAll reads).conn.checkInputBufferLimit = true →
      late ∨ (s.readAll reads).conn.state ≠ .kClosed
  | .write => True
  | .operate op => Session.Allows sets late s op

lemma acts_run {s : Session} (hopen : s.conn.state ≠ .kClosed) {handler : Handler}
    (h : Permits sets late s handler) : Session.Acts sets late s (handler.run env s) := by
  cases handler with
  | read reads => exact Session.acts_handleRead env hopen reads h
  | write => exact Session.acts_handleWrite s
  | operate op => exact Session.acts_operate h

lemma permits_any {s : Session} (hopen : s.conn.state ≠ .kClosed) (handler : Handler) :
    Permits (fun _ _ => True) True s handler := by
  cases handler with
  | read reads => exact fun _ => .inl trivial
  | write => trivial
  | operate op =>
    cases op with
    | resetIdleTimeout => exact hopen
    | clearReadBuffer => exact .inl trivial
    | _ => trivial

/-- A connection that is not established yet stays so, or is closed. -/
lemma waiting_run {s : Session} (h : s.conn.state = .kConnecting) {handler : Handler}
    (henabled : handler.enabled false = true) :
    (handler.run env s).conn.state = .kConnecting := by
  cases handler with
  | read reads => cases henabled
  | write => cases henabled
  | operate op =>
    have hconn : ¬ s.conn.isConnected := fun hconn => hconn.2.2 h
    exact (Session.state_operate_of_not_isConnected hconn op).trans h

/-- The ways in which a step can go. -/
inductive Stepped (s : Server) : Move → Server → Prop where
  | accept {fd : ℤ} {loop : ℕ} (hfd : 0 ≤ fd)
      (hunused : s.hosted.all (fun h => h.released || h.conn.fd ≠ fd)) :
      Stepped s (.accept fd loop) (s.accept fd loop)
  | establish {id : ℕ} {host : Hosted} (hhost : s.hosted[id]? = some host)
      (hwaiting : host.established = false) : Stepped s (.establish id) (s.establish id host)
  | handle {id : ℕ} {handler : Handler} {host : Hosted} (hhost : s.hosted[id]? = some host)
      (hkept : s.connections host.conn.fd = some id)
      (henabled : handler.enabled host.established = true) :
      Stepped s (.handle id handler) (s.keep id host (handler.run env (s.session host)))
  | error {loop : ℕ} {fd : ℤ} : Stepped s (.error loop fd) (s.removeEvent loop fd)
  | tick {loop : ℕ} : Stepped s (.tick loop) (s.tick loop)

lemma stepped_of_step {s t : Server} {m : Move} (h : s.step env m = some t) :
    Stepped env s m t := by
  cases m with
  | accept fd loop =>
    rw [step] at h
    split_ifs at h with hguard
    cases h
    exact .accept hguard.1 hguard.2
  | establish id =>
    obtain ⟨host, hhost, h⟩ := Option.bind_eq_some_iff.mp h
    split_ifs at h with hestablished
    cases h
    exact .establish hhost (Bool.eq_false_iff.mpr hestablished)
  | handle id handler =>
    obtain ⟨host, hhost, h⟩ := Option.bind_eq_some_iff.mp h
    split_ifs at h with hguard
    cases h
    exact .handle hhost hguard.1 hguard.2
  | error loop fd =>
    cases h
    exact .error
  | tick loop =>
    cases h
    exact .tick

/-- A kept connection is open. -/
lemma Inv.open_of_kept {s : Server} (h : s.Inv) {id : ℕ} {host : Hosted}
    (hhost : s.hosted[id]? = some host) (hkept : s.connections host.conn.fd = some id) :
    host.conn.state ≠ .kClosed := by
  obtain ⟨host', hhost', -, hopen⟩ := h.known _ _ hkept
  cases hhost.symm.trans hhost'
  exact hopen

lemma inv_handle {s : Server} (h : s.Inv) (hfree : s.Free) {id : ℕ} {host : Hosted}
    (hhost : s.hosted[id]? = some host) (hkept : s.connections host.conn.fd = some id)
    {handler : Handler} (henabled : handler.enabled host.established = true) :
    (s.keep id host (handler.run env (s.session host))).Inv ∧
      (s.keep id host (handler.run env (s.session host))).Free := by
  have hopen := h.open_of_kept hhost hkept
  refine h.keep_acts hfree hhost hopen (acts_run env hopen (permits_any hopen handler)) rfl ?_
  intro hestablished
  rcases (h.hosts id host hhost).waiting hestablished with hconnecting | hclosed
  · exact .inl (waiting_run env hconnecting (hestablished ▸ henabled))
  · exact absurd hclosed hopen

lemma inv_step {s t : Server} {m : Move} (h : s.Inv ∧ s.Free) (hstep : s.step env m = some t) :
    t.Inv ∧ t.Free := by
  obtain ⟨hinv, hfree⟩ := h
  cases stepped_of_step env hstep with
  | accept hfd hunused => exact ⟨inv_accept hinv hfd hunused _, hfree⟩
  | establish hhost hwaiting => exact inv_establish hinv hfree hhost hwaiting
  | handle hhost hkept henabled => exact inv_handle env hinv hfree hhost hkept henabled
  | error => exact ⟨inv_removeEvent hinv _ _, free_removeEvent hfree _ _⟩
  | tick =>
    exact (tick_induction (R := fun _ => True) (fun _ _ _ _ _ _ => trivial)
      (fun _ _ _ _ _ _ _ _ _ _ _ _ => trivial) hinv hfree trivial).2

/-- The invariant holds in every state that a server can reach. -/
theorem inv_run {config : Option LimitsOptions} {kernel : ℕ → WriteOutcome} {ms : List Move}
    {s : Server} (h : Runs.run (step env) (new config kernel) ms = some s) : s.Inv ∧ s.Free :=
  Runs.invariant_run (step env) (fun _ _ _ hs hstep => inv_step env hs hstep)
    ⟨inv_new config kernel, free_new config kernel⟩ h

end Server

end TinyWebServer
