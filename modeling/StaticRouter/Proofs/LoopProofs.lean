import StaticRouter.Proofs.UserStackProofs

/-!
# Proofs: the loop of the program

Which frames `ustack_run` hands to `handle_packet`, and when.
-/

namespace StaticRouter

open CMem

variable {k : Kernel} {opened : List Int} {u : UStack} {rtable : List RtEntry}

/-! ## Rounds -/

namespace Loop

variable {s s' : Loop} {fd : Int} {p : RawPacket} {received allocated : Bool} {env : Env} {i : Nat}

theorem sweep_cases {fuel : Nat} (h : s.sweep rtable fuel env = .ok s') :
    ∃ r, arpcacheSweep rtable fuel { s.router with env := env } = .ok r ∧
      s' = { s with router := r, log := s.log ++ [.swept env] } := by
  unfold Loop.sweep at h
  rw [bind_ok] at h
  obtain ⟨r, hr, h⟩ := h
  exact ⟨r, hr, (Except.ok.inj h).symm⟩

theorem take_cases (h : Loop.take u rtable fd p allocated env s = .ok s') :
    (p.counts = false ∧ s' = { s with log := s.log ++ [.taken fd p .ignored] }) ∨
      ∃ info, fdToIface fd u.ifaceList = some info ∧ p.counts = true ∧
        ((allocated = false ∧ s' = { s with log := s.log ++ [.taken fd p .lost] }) ∨
          ∃ r, handlePacket rtable info.iface p.buf { s.router with env := env } = .ok r ∧
            s' = { s with router := r, log := s.log ++ [.taken fd p (.handled info.iface env)] }) := by
  unfold Loop.take at h
  by_cases hpass : p.buf.length = 0 ∨ p.outgoing = true
  · rw [if_pos hpass] at h
    refine Or.inl ⟨?_, (Except.ok.inj h).symm⟩
    rcases hpass with h0 | ho
    · simp [RawPacket.counts, h0]
    · simp [RawPacket.counts, ho]
  · rw [if_neg hpass] at h
    obtain ⟨hlen, hout⟩ := not_or.mp hpass
    cases hi : fdToIface fd u.ifaceList with
    | none =>
      rw [hi] at h
      cases h
    | some info =>
      rw [hi] at h
      dsimp only at h
      refine Or.inr ⟨info, rfl, by simp [RawPacket.counts, hlen, hout], ?_⟩
      cases allocated with
      | false => exact Or.inl ⟨rfl, (Except.ok.inj h).symm⟩
      | true =>
        rw [if_pos rfl, bind_ok] at h
        obtain ⟨r, hr, h⟩ := h
        exact Or.inr ⟨r, hr, (Except.ok.inj h).symm⟩

/-- Taking a frame from the socket of an interface. -/
theorem take_ends {info : IfaceInfo} (hinfo : fdToIface fd u.ifaceList = some info) :
    (∃ s', Loop.take u rtable fd p allocated env s = .ok s') ∨
      ∃ f, handlePacket rtable info.iface p.buf { s.router with env := env } = .error f ∧
        Loop.take u rtable fd p allocated env s = .error f := by
  unfold Loop.take
  by_cases hpass : p.buf.length = 0 ∨ p.outgoing = true
  · rw [if_pos hpass]
    exact Or.inl ⟨_, rfl⟩
  · rw [if_neg hpass, hinfo]
    cases allocated with
    | false => exact Or.inl ⟨_, rfl⟩
    | true =>
      cases hp : handlePacket rtable info.iface p.buf { s.router with env := env } with
      | ok r => exact Or.inl ⟨_, by simp only [if_true, hp]; rfl⟩
      | error f => exact Or.inr ⟨f, rfl, by simp only [if_true, hp]; rfl⟩

theorem turn_cases (h : s.turn u rtable i received allocated env = .ok (some s')) :
    (u.nifs ≤ i ∧ s' = { s with pos := none }) ∨
      ∃ pfd, i < u.nifs ∧ s.fds[i]? = some pfd ∧
        (((pfd.revents = false ∨ received = false) ∧ s' = { s with pos := some (i + 1) }) ∨
          (pfd.revents = true ∧ received = true ∧ ∃ p rest, s.sockets pfd.fd = p :: rest ∧
            Loop.take u rtable pfd.fd p allocated env
              { s with pos := some (i + 1), sockets := Function.update s.sockets pfd.fd rest } = .ok s')) := by
  unfold Loop.turn at h
  by_cases hi : i < u.nifs
  · rw [if_pos hi] at h
    cases hp : s.fds[i]? with
    | none =>
      rw [hp] at h
      cases h
    | some pfd =>
      rw [hp] at h
      dsimp only at h
      refine Or.inr ⟨pfd, hi, rfl, ?_⟩
      cases hr : pfd.revents with
      | false =>
        rw [hr] at h
        exact Or.inl ⟨Or.inl rfl, (Option.some.inj (Except.ok.inj h)).symm⟩
      | true =>
        rw [hr, if_pos rfl] at h
        cases received with
        | false => exact Or.inl ⟨Or.inr rfl, (Option.some.inj (Except.ok.inj h)).symm⟩
        | true =>
          rw [if_pos rfl] at h
          cases hq : s.sockets pfd.fd with
          | nil =>
            rw [hq] at h
            cases h
          | cons p rest =>
            rw [hq] at h
            obtain ⟨t, ht, he⟩ := Buffer.map_ok.mp h
            exact Or.inr ⟨rfl, rfl, p, rest, rfl, Option.some.inj he ▸ ht⟩
  · rw [if_neg hi] at h
    exact Or.inl ⟨Nat.not_lt.mp hi, (Option.some.inj (Except.ok.inj h)).symm⟩

/-- What taking a frame leaves as it is. -/
theorem take_frame (h : Loop.take u rtable fd p allocated env s = .ok s') :
    s'.fds = s.fds ∧ s'.sockets = s.sockets ∧ s'.pos = s.pos := by
  rcases take_cases h with ⟨-, rfl⟩ | ⟨info, -, -, ⟨-, rfl⟩ | ⟨r, -, rfl⟩⟩ <;> exact ⟨rfl, rfl, rfl⟩

theorem poll_cases {error : Bool} (h : s.poll u error = some s') :
    s' = { s with
      fds := (s.fds.take u.nifs).map (PollFd.poll s.sockets) ++ s.fds.drop u.nifs
      pos := some 0 } := by
  unfold Loop.poll at h
  dsimp only at h
  split_ifs at h
  exact (Option.some.inj h).symm

/-! ## The array for `poll` -/

/-- The array lists the interfaces; the loop still has the frames of the sockets that `poll` has reported and that
it has not come to. -/
structure Ready (u : UStack) (s : Loop) : Prop where
  fds : s.fds.map (fun pfd => (pfd.fd, pfd.events)) = u.ifaceList.map fun info => (info.fd, true)
  ready : ∀ i, s.pos = some i → ∀ (j : Nat) (pfd : PollFd), i ≤ j → s.fds[j]? = some pfd →
    pfd.revents = true → s.sockets pfd.fd ≠ []

namespace Ready

theorem length_eq (h : Ready u s) : s.fds.length = u.ifaceList.length := by
  have hlen := congrArg List.length h.fds
  rwa [List.length_map, List.length_map] at hlen

/-- The entry of an interface. -/
theorem entry (h : Ready u s) {j : Nat} {pfd : PollFd} (hj : s.fds[j]? = some pfd) :
    pfd.events = true ∧ ∃ info, u.ifaceList[j]? = some info ∧ info.fd = pfd.fd := by
  have hmap : (s.fds.map fun pfd => (pfd.fd, pfd.events))[j]? = some (pfd.fd, pfd.events) := by
    rw [List.getElem?_map, hj]
    rfl
  rw [h.fds, List.getElem?_map, Option.map_eq_some_iff] at hmap
  obtain ⟨info, hinfo, he⟩ := hmap
  exact ⟨(Prod.mk.inj he).2.symm, info, hinfo, (Prod.mk.inj he).1⟩

/-- Different entries have different descriptors. -/
theorem fd_inj (h : Ready u s) (hu : Served k opened u) {i j : Nat} {a b : PollFd} (hi : s.fds[i]? = some a)
    (hj : s.fds[j]? = some b) (hfd : a.fd = b.fd) : i = j := by
  obtain ⟨-, x, hx, hxa⟩ := h.entry hi
  obtain ⟨-, y, hy, hyb⟩ := h.entry hj
  have hlt : i < (u.ifaceList.map (·.fd)).length := by
    rw [List.length_map]
    exact (List.getElem?_eq_some_iff.mp hx).1
  refine (List.getElem?_inj hlt hu.nodup).mp ?_
  rw [List.getElem?_map, List.getElem?_map, hx, hy, Option.map_some, Option.map_some, hxa, hyb, hfd]

theorem start (hu : Served k opened u) (router : Router) : Ready u (start u router) where
  fds := by
    show u.fds.map _ = _
    rw [hu.fds, List.map_map]
    rfl
  ready i hi := by cases hi

theorem step (h : Ready u s) (hu : Served k opened u) {x : LoopInput} (hs : Loop.Step u rtable x s s') :
    Ready u s' := by
  cases hs with
  | arrive fd p =>
    refine ⟨h.fds, fun i hi j pfd hij hj hr => ?_⟩
    by_cases he : pfd.fd = fd
    · show Function.update s.sockets fd _ pfd.fd ≠ []
      rw [he, Function.update_self]
      simp
    · show Function.update s.sockets fd _ pfd.fd ≠ []
      rw [Function.update_of_ne he]
      exact h.ready i hi j pfd hij hj hr
  | poll hpos hp =>
    obtain rfl := poll_cases hp
    have hall : s.fds.take u.nifs = s.fds ∧ s.fds.drop u.nifs = [] := by
      rw [hu.nifs, ← h.length_eq]
      exact ⟨List.take_length, List.drop_length⟩
    refine ⟨?_, fun i hi j pfd hij hj hr => ?_⟩
    · show ((s.fds.take u.nifs).map _ ++ s.fds.drop u.nifs).map _ = _
      rw [hall.1, hall.2, List.append_nil, List.map_map, ← h.fds]
      rfl
    · have hj' : (s.fds.map (PollFd.poll s.sockets))[j]? = some pfd := by
        have hj : ((s.fds.take u.nifs).map (PollFd.poll s.sockets) ++ s.fds.drop u.nifs)[j]? = some pfd := hj
        rwa [hall.1, hall.2, List.append_nil] at hj
      rw [List.getElem?_map, Option.map_eq_some_iff] at hj'
      obtain ⟨old, -, rfl⟩ := hj'
      intro hnil
      have hnil : s.sockets old.fd = [] := hnil
      simp [PollFd.poll, hnil] at hr
  | @turn i received allocated env _ _ hpos hturn =>
    rcases turn_cases hturn with ⟨-, rfl⟩ | ⟨pfd, -, hpfd, ⟨-, rfl⟩ | ⟨hr, -, p, rest, hq, htake⟩⟩
    · exact ⟨h.fds, fun i hi => by cases hi⟩
    · refine ⟨h.fds, fun i' hi' j pfd' hij hj hr => h.ready i hpos j pfd' ?_ hj hr⟩
      have := Option.some.inj hi'
      omega
    · obtain ⟨hfds, hsock, hpos'⟩ := take_frame htake
      refine ⟨by rw [hfds]; exact h.fds, fun i' hi' j pfd' hij hj hr' => ?_⟩
      have hi' : i + 1 = i' := by
        rw [hpos'] at hi'
        exact Option.some.inj hi'
      rw [hfds] at hj
      -- the entries that are still to come are for other sockets
      have hne : pfd'.fd ≠ pfd.fd := by
        intro he
        have := h.fd_inj hu hj hpfd he
        omega
      rw [hsock]
      show Function.update s.sockets pfd.fd rest pfd'.fd ≠ []
      rw [Function.update_of_ne hne]
      exact h.ready i hpos j pfd' (by omega) hj hr'
  | sweep hsw =>
    obtain ⟨r, -, rfl⟩ := sweep_cases hsw
    exact ⟨h.fds, h.ready⟩

end Ready

theorem Reached.ready (hu : Served k opened u) (h : Reached u rtable s) : Ready u s := by
  refine Runs.RunOf.invariant (I := Ready u) ?_ (fun x s s' _ _ hi hs => hi.step hu hs) h
  rintro s ⟨env, rfl⟩
  exact Ready.start hu _

/-! ## The history -/

/-- What the history says about the frames that were taken. -/
structure Accounts (u : UStack) (s : Loop) : Prop where
  fifo : ∀ fd, arrivals fd s.log = takings fd s.log ++ s.sockets fd
  passed : ∀ fd, (passed fd s.log).map (·.1) = ((takings fd s.log).filter RawPacket.counts).map RawPacket.buf
  served : ∀ fd p fate, .taken fd p fate ∈ s.log → ∃ info ∈ u.ifaceList, info.fd = fd
  iface : ∀ fd p iface env, .taken fd p (.handled iface env) ∈ s.log →
    ∃ info, fdToIface fd u.ifaceList = some info ∧ info.iface = iface

namespace Accounts

/-- The history goes on with a frame that was taken. -/
theorem taken (h : Accounts u s) {rest : List RawPacket} (fate : Fate) (hq : s.sockets fd = p :: rest)
    (hserved : ∃ info ∈ u.ifaceList, info.fd = fd)
    (hpassed : (StaticRouter.passed fd [.taken fd p fate]).map (·.1) =
      ([p].filter RawPacket.counts).map RawPacket.buf)
    (hiface : ∀ iface env, fate = .handled iface env →
      ∃ info, fdToIface fd u.ifaceList = some info ∧ info.iface = iface)
    (hsock : s'.sockets = Function.update s.sockets fd rest) (hlog : s'.log = s.log ++ [.taken fd p fate]) :
    Accounts u s' := by
  have htak : ∀ fd', takings fd' s'.log = takings fd' s.log ++ if fd = fd' then [p] else [] := by
    intro fd'
    rw [hlog, takings, List.filterMap_append]
    by_cases he : fd = fd' <;> simp [takings, he]
  refine ⟨fun fd' => ?_, fun fd' => ?_, fun fd' p' fate' hm => ?_, fun fd' p' iface env hm => ?_⟩
  · have harr : arrivals fd' s'.log = arrivals fd' s.log := by
      rw [hlog, arrivals, List.filterMap_append]
      exact List.append_nil _
    rw [harr, h.fifo, htak, hsock]
    by_cases he : fd = fd'
    · subst he
      rw [hq, Function.update_self, if_pos rfl, List.append_assoc]
      rfl
    · rw [if_neg he, Function.update_of_ne (Ne.symm he), List.append_nil]
  · have hnew : StaticRouter.passed fd' s'.log =
        StaticRouter.passed fd' s.log ++ StaticRouter.passed fd' [.taken fd p fate] := by
      rw [hlog]
      exact List.filterMap_append
    rw [hnew, List.map_append, h.passed, htak]
    by_cases he : fd = fd'
    · subst he
      rw [hpassed, if_pos rfl, List.filter_append, List.map_append]
    · have hnone : StaticRouter.passed fd' [.taken fd p fate] = [] := by
        cases fate <;> simp [StaticRouter.passed, he]
      rw [hnone, if_neg he, List.append_nil, List.map_nil, List.append_nil]
  · rw [hlog] at hm
    rcases List.mem_append.mp hm with hm | hm
    · exact h.served fd' p' fate' hm
    · cases List.mem_singleton.mp hm
      exact hserved
  · rw [hlog] at hm
    rcases List.mem_append.mp hm with hm | hm
    · exact h.iface fd' p' iface env hm
    · cases List.mem_singleton.mp hm
      exact hiface iface env rfl

theorem take (h : Accounts u s) {rest : List RawPacket} (hq : s.sockets fd = p :: rest)
    (hserved : ∃ info ∈ u.ifaceList, info.fd = fd) {i : Nat}
    (htake : Loop.take u rtable fd p allocated env
      { s with pos := some (i + 1), sockets := Function.update s.sockets fd rest } = .ok s') :
    Accounts u s' := by
  rcases take_cases htake with ⟨hno, rfl⟩ | ⟨info, hinfo, hyes, ⟨-, rfl⟩ | ⟨r, -, rfl⟩⟩
  · exact h.taken .ignored hq hserved (by simp [StaticRouter.passed, hno]) (by simp) rfl rfl
  · exact h.taken .lost hq hserved (by simp [StaticRouter.passed, hyes]) (by simp) rfl rfl
  · refine h.taken (.handled info.iface env) hq hserved (by simp [StaticRouter.passed, hyes]) ?_ rfl rfl
    intro iface env' he
    exact ⟨info, hinfo, (Fate.handled.inj he).1⟩

/-- The history goes on without a frame that was taken. -/
theorem other (h : Accounts u s) (new : List LoopEvent) (hlog : s'.log = s.log ++ new)
    (hsock : ∀ fd, s'.sockets fd = s.sockets fd ++ arrivals fd new)
    (hnew : ∀ fd p fate, .taken fd p fate ∉ new) : Accounts u s' := by
  have htak : ∀ fd, takings fd new = [] := fun fd => by
    refine List.filterMap_eq_nil_iff.mpr fun e he => ?_
    cases e with
    | taken fd' p fate => exact absurd he (hnew fd' p fate)
    | _ => rfl
  have hpas : ∀ fd, StaticRouter.passed fd new = [] := fun fd => by
    refine List.filterMap_eq_nil_iff.mpr fun e he => ?_
    cases e with
    | taken fd' p fate => exact absurd he (hnew fd' p fate)
    | _ => rfl
  have htaken : ∀ {fd p fate}, .taken fd p fate ∈ s'.log → .taken fd p fate ∈ s.log := by
    intro fd p fate hm
    rw [hlog] at hm
    exact (List.mem_append.mp hm).resolve_right (hnew fd p fate)
  have htakings : ∀ fd, takings fd s'.log = takings fd s.log := fun fd => by
    rw [hlog, takings, List.filterMap_append]
    show takings fd s.log ++ takings fd new = _
    rw [htak, List.append_nil]
  refine ⟨fun fd => ?_, fun fd => ?_, fun fd p fate hm => h.served fd p fate (htaken hm),
    fun fd p iface env hm => h.iface fd p iface env (htaken hm)⟩
  · rw [htakings, hsock, ← List.append_assoc, ← h.fifo, hlog]
    exact List.filterMap_append
  · have hsame : StaticRouter.passed fd s'.log = StaticRouter.passed fd s.log := by
      rw [hlog, StaticRouter.passed, List.filterMap_append]
      show StaticRouter.passed fd s.log ++ StaticRouter.passed fd new = _
      rw [hpas, List.append_nil]
    rw [hsame, htakings, h.passed]

theorem start (router : Router) : Accounts u (start u router) where
  fifo _ := rfl
  passed _ := rfl
  served _ _ _ hm := by cases hm
  iface _ _ _ _ hm := by cases hm

theorem step (h : Accounts u s) (hready : Ready u s) {x : LoopInput} (hs : Loop.Step u rtable x s s') :
    Accounts u s' := by
  cases hs with
  | arrive fd p =>
    refine h.other [.arrived fd p] rfl (fun fd' => ?_) (by simp)
    show Function.update s.sockets fd _ fd' = _
    by_cases he : fd' = fd
    · subst he
      simp [arrivals]
    · have he' : ¬ fd = fd' := fun h => he h.symm
      simp [arrivals, he, he']
  | poll hpos hp =>
    obtain rfl := poll_cases hp
    exact h.other [] (List.append_nil _).symm (fun fd => (List.append_nil _).symm) (by simp)
  | turn hpos hturn =>
    rcases turn_cases hturn with ⟨-, rfl⟩ | ⟨pfd, -, hpfd, ⟨-, rfl⟩ | ⟨-, -, p, rest, hq, htake⟩⟩
    · exact h.other [] (List.append_nil _).symm (fun fd => (List.append_nil _).symm) (by simp)
    · exact h.other [] (List.append_nil _).symm (fun fd => (List.append_nil _).symm) (by simp)
    · obtain ⟨-, info, hinfo, hfd⟩ := hready.entry hpfd
      exact h.take hq ⟨info, List.mem_of_getElem? hinfo, hfd⟩ htake
  | @sweep fuel env _ _ hsw =>
    obtain ⟨r, -, rfl⟩ := sweep_cases hsw
    exact h.other [.swept env] rfl (fun fd => (List.append_nil _).symm) (by simp)

end Accounts

theorem Reached.accounts (hu : Served k opened u) (h : Reached u rtable s) : Accounts u s := by
  refine Runs.RunOf.invariant (I := Accounts u) ?_ (fun x s s' hr _ hi hs => hi.step (Reached.ready hu hr) hs) h
  rintro s ⟨env, rfl⟩
  exact Accounts.start _

/-- The router makes a run of its own. -/
theorem Reached.inputs (h : Reached u rtable s) : ∃ env,
    Runs.Steps (StaticRouter.Step rtable) (fun _ _ => True) (routerInputs s.log) (arpcacheInit env) s.router := by
  have happ : ∀ log new, routerInputs (log ++ new) = routerInputs log ++ routerInputs new := fun log new =>
    List.filterMap_append
  induction h with
  | init h =>
    obtain ⟨env, rfl⟩ := h
    exact ⟨env, .refl _⟩
  | @step x s s' _ _ hs ih =>
    obtain ⟨env, ih⟩ := ih
    refine ⟨env, ?_⟩
    cases hs with
    | arrive fd p =>
      have hsame : routerInputs (s.arrive fd p).log = routerInputs s.log :=
        (happ _ _).trans (List.append_nil _)
      rw [hsame]
      exact ih
    | poll hpos hp =>
      obtain rfl := poll_cases hp
      exact ih
    | turn hpos hturn =>
      rcases turn_cases hturn with ⟨-, rfl⟩ | ⟨pfd, -, hpfd, ⟨-, rfl⟩ | ⟨-, -, p, rest, hq, htake⟩⟩
      · exact ih
      · exact ih
      · rcases take_cases htake with ⟨-, rfl⟩ | ⟨info, -, -, ⟨-, rfl⟩ | ⟨r, hr, rfl⟩⟩
        · rw [happ]
          exact (List.append_nil _).symm ▸ ih
        · rw [happ]
          exact (List.append_nil _).symm ▸ ih
        · rw [happ]
          exact ih.step trivial (.frame hr)
    | sweep hsw =>
      obtain ⟨r, hr, rfl⟩ := sweep_cases hsw
      rw [happ]
      exact ih.step trivial (.sweep hr)

end Loop

variable (u rtable) in
/-- What a replay from an empty cache shows of its last state is true of some state of a run. -/
theorem Loop.Reached.of_replay (fuel : Nat) (xs : List LoopInput) (env : Env) (P : Loop → Prop) [DecidablePred P]
    (h : (Runs.replay (fun _ _ => True) (Loop.exec u rtable fuel) xs (Loop.start u (arpcacheInit env))).any
      (P ·) = true) : ∃ s, Loop.Reached u rtable s ∧ P s :=
  Runs.RunOf.of_replay Loop.Step.of_exec xs ⟨env, rfl⟩ P h

/-- **What the loop hands on.** Whatever arrives in the sockets, and whenever the other thread sweeps, the router
makes a run on the frames that `ustack_run` hands it. These are, socket by socket: what arrived there, in its
order and each frame once, but for what is still in the socket, for what is empty or outgoing, and for what there
was no memory for; each frame is cut to `ETH_FRAME_LEN` bytes and handed on with the interface of its socket. -/
theorem ustackRun_hands_on {k : Kernel} {addrs : Option (List IfAddrs)} {opened : List Int} {u : UStack}
    (hu : k.initAllIfaces addrs opened = .ok u) {s : Loop} (h : Loop.Reached u rtable s) :
    (∃ env, Runs.Steps (Step rtable) (fun _ _ => True) (routerInputs s.log) (arpcacheInit env) s.router) ∧
      (∀ fd, arrivals fd s.log = takings fd s.log ++ s.sockets fd) ∧
      (∀ info ∈ u.ifaceList, (passed info.fd s.log).map (·.1) =
          ((takings info.fd s.log).filter RawPacket.counts).map RawPacket.buf ∧
        ∀ p iface env, .taken info.fd p (.handled iface env) ∈ s.log → iface = info.iface) ∧
      ∀ fd p fate, .taken fd p fate ∈ s.log → ∃ info ∈ u.ifaceList, info.fd = fd := by
  have hserved := served_of_ok hu
  have hacc := Loop.Reached.accounts hserved h
  refine ⟨Loop.Reached.inputs h, hacc.fifo, fun info hinfo => ⟨hacc.passed _, fun p iface env hm => ?_⟩,
    hacc.served⟩
  obtain ⟨info', hinfo', rfl⟩ := hacc.iface _ _ _ _ hm
  rw [(hserved.read info hinfo).2.2] at hinfo'
  rw [Option.some.inj hinfo']

/-- A frame arrives on the first interface, and one that the router itself has sent; both are taken. -/
theorem ustackRun_hands_on_one : ∃ s : Loop,
    (takings 3 s.log).length = 2 ∧ (passed 3 s.log).map (·.2) = [some Sample.eth0] ∧
      (passed 3 s.log).map (·.1) = ((takings 3 s.log).filter RawPacket.counts).map RawPacket.buf := by
  obtain ⟨s, hs, hp⟩ := Loop.Reached.of_replay Sample.ustack Sample.connected 8
    [.arrive 3 ⟨false, Sample.udp 0x0a000102 0x0a000202 64⟩, .arrive 3 ⟨true, []⟩, .poll false,
      .turn true true (Sample.clockAt 0), .turn true true (Sample.clockAt 0),
      .turn true true (Sample.clockAt 0), .poll false, .turn true true (Sample.clockAt 1)]
    (Sample.clockAt 0)
    (fun s => (takings 3 s.log).length = 2 ∧ (passed 3 s.log).map (·.2) = [some Sample.eth0])
    (by decide +kernel)
  obtain ⟨-, -, hpassed, -⟩ := ustackRun_hands_on Sample.initAllIfaces_kernel hs
  exact ⟨s, hp.1, hp.2, (hpassed _ List.mem_cons_self).1⟩

/-! ## Rounds of the loop -/

namespace Loop

variable {s s' : Loop}

theorem Step.log_grows {x : LoopInput} (hs : Loop.Step u rtable x s s') : s.log <+: s'.log := by
  cases hs with
  | arrive fd p => exact List.prefix_append _ _
  | poll hpos hp =>
    obtain rfl := poll_cases hp
    exact List.prefix_refl _
  | turn hpos hturn =>
    rcases turn_cases hturn with ⟨-, rfl⟩ | ⟨pfd, -, hpfd, ⟨-, rfl⟩ | ⟨-, -, p, rest, hq, htake⟩⟩
    · exact List.prefix_refl _
    · exact List.prefix_refl _
    · rcases take_cases htake with ⟨-, rfl⟩ | ⟨info, -, -, ⟨-, rfl⟩ | ⟨r, hr, rfl⟩⟩ <;>
        exact List.prefix_append _ _
  | sweep hsw =>
    obtain ⟨r, hr, rfl⟩ := sweep_cases hsw
    exact List.prefix_append _ _

variable {C : LoopInput → Loop → Prop} {ls : List LoopInput}

theorem steps_log_grows (h : Runs.Steps (Loop.Step u rtable) C ls s s') : s.log <+: s'.log := by
  induction h with
  | refl => exact List.prefix_refl _
  | step _ _ hs ih => exact ih.trans hs.log_grows

/-- A socket that held more frames than have been taken since still holds one. -/
theorem sockets_ne_nil (ha : Accounts u s) (ha' : Accounts u s') (hlog : s.log <+: s'.log) {fd : Int}
    (hlt : (takings fd s'.log).length < (takings fd s.log).length + (s.sockets fd).length) :
    s'.sockets fd ≠ [] := by
  intro hnil
  have harr : (arrivals fd s.log).length ≤ (arrivals fd s'.log).length :=
    (hlog.filterMap _).length_le
  rw [ha.fifo, ha'.fifo, hnil, List.append_nil, List.length_append] at harr
  omega

/-- How far the loop has come since `s`: after as many returns of `poll` as `polls`, the inner loop has made
`turns` rounds, and each socket has been read once for each return of `poll`, but for the socket that the inner
loop has still to come to, and but for sockets that have lost the frames that they held. -/
structure Progress (u : UStack) (s : Loop) (polls turns : Nat) (s' : Loop) : Prop where
  pos : ∀ i, s'.pos = some i → i ≤ u.nifs
  turns : turns + (s'.pos.map fun i => u.nifs + 1 - i).getD 0 = (u.nifs + 1) * polls
  read : ∀ (j : Nat) (info : IfaceInfo), u.ifaceList[j]? = some info →
    (takings info.fd s.log).length + (s.sockets info.fd).length ≤ (takings info.fd s'.log).length ∨
      (takings info.fd s.log).length + polls ≤ (takings info.fd s'.log).length ∨
      ((takings info.fd s.log).length + polls ≤ (takings info.fd s'.log).length + 1 ∧
        ∃ i pfd, s'.pos = some i ∧ i ≤ j ∧ s'.fds[j]? = some pfd ∧ pfd.revents = true)

namespace Progress

variable {s₁ : Loop} {polls turns : Nat}

/-- A step that leaves the loop where it is, and takes no frame. -/
theorem stay (h : Progress u s polls turns s') (hpos : s₁.pos = s'.pos) (hfds : s₁.fds = s'.fds)
    (htak : ∀ fd, takings fd s₁.log = takings fd s'.log) : Progress u s polls turns s₁ where
  pos := by rw [hpos]; exact h.pos
  turns := by rw [hpos]; exact h.turns
  read j info hj := by
    rw [htak, hpos, hfds]
    exact h.read j info hj

theorem poll (h : Progress u s polls turns s') (hr : Ready u s') (hnifs : u.nifs = u.ifaceList.length)
    (ha : Accounts u s) (ha' : Accounts u s') (hlog : s.log <+: s'.log) {error : Bool}
    (hpos : s'.pos = none) (hp : s'.poll u error = some s₁) : Progress u s (polls + 1) turns s₁ := by
  obtain rfl := poll_cases hp
  have ht := h.turns
  rw [hpos, Option.map_none, Option.getD_none] at ht
  refine ⟨fun i hi => ?_, ?_, fun j info hj => ?_⟩
  · rw [← Option.some.inj hi]
    exact Nat.zero_le _
  · show turns + (u.nifs + 1 - 0) = _
    rw [Nat.mul_succ, ← ht]
    omega
  · show _ ∨ _ ∨ _ ∧ ∃ i pfd, some 0 = some i ∧ i ≤ j ∧
      ((s'.fds.take u.nifs).map (PollFd.poll s'.sockets) ++ s'.fds.drop u.nifs)[j]? = some pfd ∧
        pfd.revents = true
    have hall : s'.fds.take u.nifs = s'.fds ∧ s'.fds.drop u.nifs = [] := by
      rw [hnifs, ← hr.length_eq]
      exact ⟨List.take_length, List.drop_length⟩
    rw [hall.1, hall.2, List.append_nil]
    rcases h.read j info hj with hdone | hdone | ⟨-, i, pfd, hi, -⟩
    · exact Or.inl hdone
    · by_cases hlt : (takings info.fd s'.log).length <
          (takings info.fd s.log).length + (s.sockets info.fd).length
      · have hne := sockets_ne_nil ha ha' hlog hlt
        have hjlt : j < s'.fds.length := by
          rw [hr.length_eq]
          exact (List.getElem?_eq_some_iff.mp hj).1
        have hget : s'.fds[j]? = some s'.fds[j] := List.getElem?_eq_getElem hjlt
        obtain ⟨hev, info', hinfo', hfd⟩ := hr.entry hget
        rw [hj] at hinfo'
        obtain rfl := Option.some.inj hinfo'
        refine Or.inr (Or.inr ⟨Nat.add_le_add_right hdone 1, 0, PollFd.poll s'.sockets s'.fds[j], rfl,
          Nat.zero_le j, ?_, ?_⟩)
        · rw [List.getElem?_map, hget]
          rfl
        · show (s'.fds[j].events && !(s'.sockets s'.fds[j].fd).isEmpty) = true
          rw [hev, ← hfd]
          simpa using hne
      · exact Or.inl (Nat.not_lt.mp hlt)
    · rw [hpos] at hi
      cases hi

theorem turn (h : Progress u s polls turns s') (hr : Ready u s') (hu : Served k opened u)
    {allocated : Bool} {env : Env} {i : Nat} (hpos : s'.pos = some i)
    (ht : s'.turn u rtable i true allocated env = .ok (some s₁)) : Progress u s polls (turns + 1) s₁ := by
  have hle := h.pos i hpos
  have hturns := h.turns
  rw [hpos] at hturns
  have hturns : turns + (u.nifs + 1 - i) = (u.nifs + 1) * polls := hturns
  -- where a frame is taken, if at all
  rcases turn_cases ht with ⟨hge, rfl⟩ | ⟨pfd, hlt, hpfd, ⟨hno, rfl⟩ | ⟨-, -, p, rest, hq, htake⟩⟩
  · refine ⟨fun i' hi' => (nomatch hi'), ?_, fun j info hj => ?_⟩
    · show turns + 1 + 0 = _
      omega
    · rcases h.read j info hj with hdone | hdone | ⟨-, i', pfd, hi', hij, -⟩
      · exact Or.inl hdone
      · exact Or.inr (Or.inl hdone)
      · have hjlt := (List.getElem?_eq_some_iff.mp hj).1
        rw [hpos] at hi'
        have := Option.some.inj hi'
        rw [← hu.nifs] at hjlt
        omega
  · have hnone : pfd.revents = false := hno.resolve_right (by simp)
    refine ⟨fun i' hi' => ?_, ?_, fun j info hj => ?_⟩
    · rw [← Option.some.inj hi']
      exact hlt
    · show turns + 1 + (u.nifs + 1 - (i + 1)) = _
      omega
    · rcases h.read j info hj with hdone | hdone | ⟨hdone, i', pfd', hi', hij, hpfd', hset⟩
      · exact Or.inl hdone
      · exact Or.inr (Or.inl hdone)
      · rw [hpos] at hi'
        obtain rfl := Option.some.inj hi'
        have hne : i ≠ j := by
          rintro rfl
          rw [hpfd] at hpfd'
          rw [Option.some.inj hpfd', hset] at hnone
          cases hnone
        exact Or.inr (Or.inr ⟨hdone, i + 1, pfd', rfl, by omega, hpfd', hset⟩)
  · obtain ⟨hfds, -, hpos₁⟩ := take_frame htake
    have hlog : ∃ fate, s₁.log = s'.log ++ [.taken pfd.fd p fate] := by
      rcases take_cases htake with ⟨-, rfl⟩ | ⟨info, -, -, ⟨-, rfl⟩ | ⟨r, -, rfl⟩⟩ <;> exact ⟨_, rfl⟩
    obtain ⟨fate, hlog⟩ := hlog
    have htak : ∀ fd, takings fd s₁.log = takings fd s'.log ++ if pfd.fd = fd then [p] else [] := by
      intro fd
      rw [hlog, takings, List.filterMap_append]
      by_cases he : pfd.fd = fd <;> simp [takings, he]
    refine ⟨fun i' hi' => ?_, ?_, fun j info hj => ?_⟩
    · rw [hpos₁] at hi'
      rw [← Option.some.inj hi']
      exact hlt
    · rw [hpos₁]
      show turns + 1 + (u.nifs + 1 - (i + 1)) = _
      omega
    · rw [htak, List.length_append]
      rcases h.read j info hj with hdone | hdone | ⟨hdone, i', pfd', hi', hij, hpfd', hset⟩
      · exact Or.inl (Nat.le_add_right_of_le hdone)
      · exact Or.inr (Or.inl (Nat.le_add_right_of_le hdone))
      · rw [hpos] at hi'
        obtain rfl := Option.some.inj hi'
        by_cases hij' : i = j
        · -- it is the turn of this socket
          subst hij'
          obtain ⟨-, info', hinfo', hfd⟩ := hr.entry hpfd
          rw [hj] at hinfo'
          obtain rfl := Option.some.inj hinfo'
          rw [if_pos hfd.symm]
          exact Or.inr (Or.inl hdone)
        · refine Or.inr (Or.inr ⟨by omega, i + 1, pfd', hpos₁, by omega, ?_, hset⟩)
          rw [hfds]
          exact hpfd'

end Progress

/-- From a `poll` on. -/
theorem steps_progress (hu : Served k opened u) (hs : Reached u rtable s) (hpos : s.pos = none)
    (h : Runs.Steps (Loop.Step u rtable) (fun x _ => x.Receives) ls s s') :
    Reached u rtable s' ∧ Progress u s (ls.countP LoopInput.isPoll) (ls.countP LoopInput.isTurn) s' := by
  induction h with
  | refl =>
    refine ⟨hs, fun i hi => ?_, ?_, fun j info hj => Or.inr (Or.inl (Nat.le_refl _))⟩
    · rw [hpos] at hi
      cases hi
    · rw [hpos]
      rfl
  | @step ls x s s' s₁ hsteps hx hstep ih =>
    obtain ⟨hreach, ih⟩ := ih hs hpos
    refine ⟨hreach.step trivial hstep, ?_⟩
    rw [List.countP_append, List.countP_append, List.countP_singleton, List.countP_singleton]
    have hready := Reached.ready hu hreach
    cases hstep with
    | arrive fd p => exact ih.stay rfl rfl fun fd' => by simp [takings, Loop.arrive]
    | poll hpos' hp =>
      exact ih.poll hready hu.nifs (Reached.accounts hu hs) (Reached.accounts hu hreach) (steps_log_grows hsteps)
        hpos' hp
    | turn hpos' ht =>
      obtain rfl : _ = true := hx
      exact ih.turn hready hu hpos' ht
    | sweep hsw =>
      obtain ⟨r, -, rfl⟩ := sweep_cases hsw
      exact ih.stay rfl rfl fun fd' => by simp [takings]

end Loop

theorem Sample.reached_waitingLoop : Loop.Reached ustack connected waitingLoop :=
  (((Runs.RunOf.init ⟨clockAt 0, rfl⟩).step trivial (.arrive 3 _ _)).step trivial (.arrive 3 _ _)).step trivial
    (.arrive 5 _ _)

/-- **The loop does not get stuck.** A round of the inner loop is completed whatever the kernel answers, or
`handle_packet` faults on the frame that it was handed: no `recvfrom` waits, though all interfaces are served in
turn by blocking calls; the array is never left; and `fd_to_iface` never fails. -/
theorem ustackRun_completes {k : Kernel} {addrs : Option (List IfAddrs)} {opened : List Int} {u : UStack}
    (hu : k.initAllIfaces addrs opened = .ok u) {s : Loop} (h : Loop.Reached u rtable s) {i : Nat}
    (hpos : s.pos = some i) (received allocated : Bool) (env : Env) :
    (∃ s', s.turn u rtable i received allocated env = .ok (some s')) ∨
      ∃ info ∈ u.ifaceList, ∃ p f, (s.sockets info.fd).head? = some p ∧
        handlePacket rtable info.iface p.buf { s.router with env := env } = .error f ∧
        s.turn u rtable i received allocated env = .error f := by
  have hserved := served_of_ok hu
  have hready := Loop.Reached.ready hserved h
  by_cases hi : i < u.nifs
  · have hlt : i < s.fds.length := by
      rw [hready.length_eq, ← hserved.nifs]
      exact hi
    have hget : s.fds[i]? = some s.fds[i] := List.getElem?_eq_getElem hlt
    obtain ⟨-, info, hinfo, hfd⟩ := hready.entry hget
    have hmem := List.mem_of_getElem? hinfo
    rw [Loop.turn, if_pos hi, hget]
    dsimp only
    by_cases hread : s.fds[i].revents = true ∧ received = true
    · have hne := hready.ready i hpos i s.fds[i] (Nat.le_refl i) hget hread.1
      obtain ⟨p, rest, hq⟩ := List.exists_cons_of_ne_nil hne
      rw [if_pos hread.1, if_pos hread.2, hq]
      dsimp only
      rcases Loop.take_ends (p := p) (s := { s with
            pos := some (i + 1)
            sockets := Function.update s.sockets s.fds[i].fd rest })
          (hfd ▸ (hserved.read info hmem).2.2) with ⟨s', hs'⟩ | ⟨f, hf, hs'⟩
      · exact Or.inl ⟨s', by rw [hs']; rfl⟩
      · exact Or.inr ⟨info, hmem, p, f, by rw [hfd, hq]; rfl, hf, by rw [hs']; rfl⟩
    · refine Or.inl ⟨{ s with pos := some (i + 1) }, ?_⟩
      split_ifs with hrev hrec
      · exact absurd ⟨hrev, hrec⟩ hread
      · rfl
      · rfl
  · exact Or.inl ⟨{ s with pos := none }, by rw [Loop.turn, if_neg hi]⟩

/-- `poll` has returned. -/
theorem ustackRun_completes_first : ∃ s : Loop, s.pos = some 0 ∧ ((s.sockets 3).length = 2) ∧
    ((∃ s', s.turn Sample.ustack Sample.connected 0 true true (Sample.clockAt 0) = .ok (some s')) ∨
      ∃ info ∈ Sample.ustack.ifaceList, ∃ p f, (s.sockets info.fd).head? = some p ∧
        handlePacket Sample.connected info.iface p.buf { s.router with env := Sample.clockAt 0 } = .error f ∧
        s.turn Sample.ustack Sample.connected 0 true true (Sample.clockAt 0) = .error f) := by
  obtain ⟨s, hs, hpos, hwait⟩ := Loop.Reached.of_replay Sample.ustack Sample.connected 8
    [.arrive 3 ⟨false, Sample.udp 0x0a000102 0x0a000202 64⟩, .arrive 3 ⟨true, []⟩, .poll false]
    (Sample.clockAt 0) (fun s => s.pos = some 0 ∧ (s.sockets 3).length = 2) (by decide +kernel)
  exact ⟨s, hpos, hwait, ustackRun_completes Sample.initAllIfaces_kernel hs hpos true true (Sample.clockAt 0)⟩

end StaticRouter
