import StaticRouter.UserStack

/-!
# Proofs: the interfaces and the loop

What `init_all_ifaces` makes of the kernel's answers, and what `ustack_run` does with the frames that arrive.
-/

namespace StaticRouter

open CMem

/-! ## Finding the interfaces -/

namespace Kernel

variable {k : Kernel}

theorem mallocZero_ok {number : Nat} (h : k.malloc number = true) : k.mallocZero number = .ok () := if_pos h

theorem mallocZero_error {number : Nat} (h : k.malloc number = false) :
    k.mallocZero number = .error .outOfBounds := if_neg (by rw [h]; exact Bool.false_ne_true)

variable (k) in
/-- The first loop makes an interface of each address that is taken, unless there is no memory for one. -/
theorem findIfaces_cases (addrs : List IfAddrs) (u : UStack) :
    ((∀ i < (addrs.filter IfAddrs.isEth).length, k.malloc (u.nifs + 1 + i) = true) ∧
        k.findIfaces addrs u = .ok { u with
          ifaceList := u.ifaceList ++ (addrs.filter IfAddrs.isEth).map fun a => ⟨a.name, 0, 0, zeroMac, 0, 0⟩
          nifs := u.nifs + (addrs.filter IfAddrs.isEth).length }) ∨
      (∃ i < (addrs.filter IfAddrs.isEth).length, k.malloc (u.nifs + 1 + i) = false) ∧
        k.findIfaces addrs u = .error .outOfBounds := by
  induction addrs generalizing u with
  | nil => simp [findIfaces]
  | cons addr rest ih =>
    by_cases ha : addr.isEth = true
    · rw [findIfaces, if_pos ha, List.filter_cons_of_pos ha, List.length_cons]
      cases hm : k.malloc (u.nifs + 1) with
      | false =>
        rw [mallocZero_error hm]
        exact Or.inr ⟨⟨0, Nat.succ_pos _, hm⟩, rfl⟩
      | true =>
        rw [mallocZero_ok hm, ok_bind]
        rcases ih { u with
          ifaceList := u.ifaceList ++ [⟨addr.name, 0, 0, zeroMac, 0, 0⟩]
          nifs := u.nifs + 1 } with ⟨hall, h⟩ | ⟨⟨i, hi, hno⟩, h⟩
        · refine Or.inl ⟨fun i hi => ?_, ?_⟩
          · cases i with
            | zero => exact hm
            | succ i =>
              have hnext := hall i (by omega)
              rwa [Nat.add_right_comm (u.nifs + 1) 1 i] at hnext
          · rw [h]
            simp [Nat.add_assoc, Nat.add_comm 1]
        · refine Or.inr ⟨⟨i + 1, by omega, ?_⟩, h⟩
          rwa [Nat.add_right_comm (u.nifs + 1) 1 i] at hno
    · rw [findIfaces, if_neg ha, List.filter_cons_of_neg ha]
      exact ih u

end Kernel

theorem printNames_eq (ifaces : List IfaceInfo) {off : Nat} (hoff : off < 1024) :
    printNames ifaces off =
      if off + namesLength (ifaces.map (·.name)) < 1024 then .ok (off + namesLength (ifaces.map (·.name)))
      else .error .outOfBounds := by
  induction ifaces generalizing off with
  | nil => simp [printNames, namesLength, hoff]
  | cons iface rest ih =>
    have hsum : namesLength ((iface :: rest).map (·.name)) =
        (1 + iface.name.bytes.length) + namesLength (rest.map (·.name)) := by
      simp [namesLength]
    rw [hsum, ← Nat.add_assoc, printNames]
    by_cases hfit : off + (1 + iface.name.bytes.length + 1) ≤ 1024
    · rw [if_pos hfit, ih (by omega)]
    · rw [if_neg hfit, if_neg (by omega)]

namespace Kernel

variable {k : Kernel}

/-- Until the array for `poll` is allocated. -/
theorem setUp_cases (k : Kernel) (addrs : Option (List IfAddrs)) (opened : List Int) :
    (ethNames (addrs.getD []) = [] ∧ k.initAllIfaces addrs opened = .error .exit) ∨
      ethNames (addrs.getD []) ≠ [] ∧
        (k.LacksMemory (ethNames (addrs.getD [])) ∧
            k.initAllIfaces addrs opened = .error (.fault .outOfBounds) ∨
          ¬ k.LacksMemory (ethNames (addrs.getD [])) ∧
            k.initAllIfaces addrs opened =
              k.initIfaces ((ethNames (addrs.getD [])).map fun n => ⟨n, 0, 0, zeroMac, 0, 0⟩) 0
                (List.replicate (ethNames (addrs.getD [])).length ⟨0, false, false⟩) opened >>= fun r =>
                  .ok ⟨r.1, (ethNames (addrs.getD [])).length, r.2⟩) := by
  generalize haddrs : addrs.getD [] = l
  have hnames : (l.filter IfAddrs.isEth).map (fun a => (⟨a.name, 0, 0, zeroMac, 0, 0⟩ : IfaceInfo)) =
      (ethNames l).map fun n => ⟨n, 0, 0, zeroMac, 0, 0⟩ := by
    rw [ethNames, List.map_map]
    rfl
  have hback : ((ethNames l).map fun n => (⟨n, 0, 0, zeroMac, 0, 0⟩ : IfaceInfo)).map (·.name) = ethNames l := by
    rw [List.map_map]
    exact List.map_id _
  have hlen : (l.filter IfAddrs.isEth).length = (ethNames l).length := by rw [ethNames, List.length_map]
  have hfound := k.findIfaces_cases l ⟨[], 0, []⟩
  simp only [List.nil_append, Nat.zero_add, hnames, hlen, Nat.add_comm 1] at hfound
  rw [initAllIfaces, findAvailableIfaces, haddrs]
  by_cases hnil : ethNames l = []
  · rcases hfound with ⟨-, hf⟩ | ⟨⟨i, hi, -⟩, -⟩
    · rw [hf, hnil]
      exact Or.inl ⟨rfl, rfl⟩
    · rw [hnil] at hi
      exact absurd hi (Nat.not_lt_zero i)
  · have hne : (ethNames l).length ≠ 0 := fun he => hnil (List.length_eq_zero_iff.mp he)
    refine Or.inr ⟨hnil, ?_⟩
    rcases hfound with ⟨hall, hf⟩ | ⟨⟨i, hi, hno⟩, hf⟩
    · rw [hf, orFault, ok_bind]
      dsimp only
      rw [if_neg hne, printNames_eq _ (by decide), hback, Nat.zero_add]
      by_cases hfit : namesLength (ethNames l) < 1024
      · rw [if_pos hfit, orFault, ok_bind]
        cases hm : k.malloc ((ethNames l).length + 1) with
        | false =>
          refine Or.inl ⟨Or.inl ⟨_, Nat.le_refl _, hm⟩, ?_⟩
          show orFault (k.mallocZero ((ethNames l).length + 1)) >>= _ = _
          rw [mallocZero_error hm]
          rfl
        | true =>
          refine Or.inr ⟨?_, ?_⟩
          · rintro (⟨i, hi, hno⟩ | hlong)
            · rcases Nat.lt_or_eq_of_le hi with hlt | rfl
              · rw [hall i hlt] at hno
                cases hno
              · rw [hm] at hno
                cases hno
            · exact Nat.not_lt.mpr hlong hfit
          · show orFault (k.mallocZero ((ethNames l).length + 1)) >>= _ = _
            rw [mallocZero_ok hm]
            rfl
      · rw [if_neg hfit]
        exact Or.inl ⟨Or.inr (Nat.not_lt.mp hfit), rfl⟩
    · rw [hf]
      exact Or.inl ⟨Or.inl ⟨i, Nat.le_of_lt hi, hno⟩, rfl⟩

/-! ## Reading their addresses -/

theorem ioctl_of_nonneg {α : Type} {fd : Int} (h : 0 ≤ fd) (x : Option α) : ioctl fd x = x :=
  if_neg (by omega)

theorem openSocket_some {family : Family} {opened : List Int} {sd : Int} (h : k.socket family opened = some sd) :
    k.openSocket family opened = (sd, sd :: opened) := by rw [openSocket, h]

theorem openSocket_none {family : Family} {opened : List Int} (h : k.socket family opened = none) :
    k.openSocket family opened = (-1, opened) := by rw [openSocket, h]

theorem mem_openSocket {family : Family} {opened : List Int} {x : Int} (hx : x ∈ opened) :
    x ∈ (k.openSocket family opened).2 := by
  cases hs : k.socket family opened with
  | none =>
    rw [openSocket_none hs]
    exact hx
  | some sd =>
    rw [openSocket_some hs]
    exact List.mem_cons_of_mem sd hx

/-- What is open stays open. -/
theorem mem_openedAfter (n : Nat) {opened : List Int} {x : Int} (hx : x ∈ opened) : x ∈ k.openedAfter n opened := by
  induction n generalizing opened with
  | zero => exact hx
  | succ n ih => exact ih (mem_openSocket (mem_openSocket hx))

theorem openDevice_cases (dname : IfName) (opened : List Int) :
    ((k.openDevice dname opened = (-1, (k.openSocket .packet opened).2)) ∧
        ¬ (k.socket .packet opened ≠ none ∧ (∃ index, k.ifIndex dname = some index ∧ k.bind index = true) ∧
          k.hwAddr dname ≠ none)) ∨
      ∃ fd index mac, k.socket .packet opened = some fd ∧ k.openDevice dname opened = (fd, (k.openSocket .packet opened).2) ∧
        k.ifIndex dname = some index ∧ k.bind index = true ∧ k.hwAddr dname = some mac := by
  unfold openDevice
  cases hs : k.socket .packet opened with
  | none =>
    rw [openSocket_none hs]
    exact Or.inl ⟨rfl, fun h => h.1 rfl⟩
  | some fd =>
    have h0 := (k.socket_new _ opened fd hs).1
    simp only [openSocket_some hs, ioctl_of_nonneg h0]
    cases hidx : k.ifIndex dname with
    | none => exact Or.inl ⟨rfl, fun ⟨_, ⟨_, he, _⟩, _⟩ => by cases he⟩
    | some index =>
      by_cases hok : k.bind index = true ∧ (k.hwAddr dname).isSome = true
      · obtain ⟨mac, hmac⟩ := Option.isSome_iff_exists.mp hok.2
        exact Or.inr ⟨fd, index, mac, rfl, if_pos hok, rfl, hok.1, hmac⟩
      · refine Or.inl ⟨if_neg hok, fun ⟨_, ⟨index', he, hb⟩, hmac⟩ => hok ?_⟩
        cases he
        exact ⟨hb, Option.isSome_iff_ne_none.mpr hmac⟩

theorem readIfaceInfo_cases (iface : IfaceInfo) (opened : List Int) :
    (k.readIfaceInfo iface opened = .error .exit ∧ ¬ k.Serves opened iface.name) ∨
      k.Serves opened iface.name ∧ ∃ info, k.readIfaceInfo iface opened = .ok (info, k.openedAfter 1 opened) ∧
        info.name = iface.name ∧ k.HasRead opened info := by
  unfold readIfaceInfo
  rcases k.openDevice_cases iface.name opened with ⟨hopen, hno⟩ | ⟨fd, index, mac, hs, hopen, hidx, hb, hmac⟩
  · -- there is no descriptor to ask for an address
    refine Or.inl ⟨?_, fun h => hno ⟨h.socket, h.bind, h.hwAddr⟩⟩
    rw [hopen]
    rfl
  · have h0 := (k.socket_new _ opened fd hs).1
    simp only [hopen, ioctl_of_nonneg h0]
    cases ha : k.addr iface.name with
    | none => exact Or.inl ⟨rfl, fun h => h.addr ha⟩
    | some ip =>
      cases hm : k.netmask iface.name with
      | none => exact Or.inl ⟨rfl, fun h => h.netmask hm⟩
      | some mask =>
        have hserves : k.Serves opened iface.name :=
          ⟨by rw [hs]; simp, ⟨index, hidx, hb⟩, by rw [hmac]; simp, by rw [ha]; simp, by rw [hm]; simp⟩
        refine Or.inr ⟨hserves, _, rfl, rfl, ⟨hs, ha, hm, ?_, ?_, ?_⟩⟩
        all_goals
          intro hsecond
          dsimp only at hsecond ⊢
          rw [openSocket_some hs]
        · obtain ⟨sd, hsd⟩ := Option.ne_none_iff_exists'.mp hsecond
          rw [openSocket_some hsd, ioctl_of_nonneg (k.socket_new _ _ _ hsd).1, hidx, Option.getD_some]
        · obtain ⟨sd, hsd⟩ := Option.ne_none_iff_exists'.mp hsecond
          rw [openSocket_some hsd, ioctl_of_nonneg (k.socket_new _ _ _ hsd).1, hmac, Option.getD_some]
        · rw [openSocket_none hsecond]
          rfl

/-- The descriptor of an interface that was read is open then. -/
theorem HasRead.mem_opened {opened : List Int} {info : IfaceInfo} (h : k.HasRead opened info) :
    info.fd ∈ k.openedAfter 1 opened := by
  rw [openedAfter, openSocket_some h.fd]
  exact mem_openSocket List.mem_cons_self

/-- The loop of `init_all_ifaces` stays in the array, and puts the descriptor of each interface where the
interface stands in the list. -/
theorem initIfaces_cases (ifaces : List IfaceInfo) {i : Nat} (fds : List PollFd) (opened : List Int)
    (hlen : i + ifaces.length = fds.length) :
    (k.initIfaces ifaces i fds opened = .error .exit ∧
        ∃ n iface, ifaces[n]? = some iface ∧ ¬ k.Serves (k.openedAfter n opened) iface.name) ∨
      (∀ n iface, ifaces[n]? = some iface → k.Serves (k.openedAfter n opened) iface.name) ∧
        ∃ infos, k.initIfaces ifaces i fds opened =
            .ok (infos, fds.take i ++ infos.map fun info => ⟨info.fd, true, false⟩) ∧
          infos.map (·.name) = ifaces.map (·.name) ∧
          (∀ n info, infos[n]? = some info → k.HasRead (k.openedAfter n opened) info) ∧
          (infos.map (·.fd)).Nodup := by
  induction ifaces generalizing i fds opened with
  | nil =>
    refine Or.inr ⟨by simp, [], ?_, rfl, by simp, List.nodup_nil⟩
    have hall : fds.take i = fds := List.take_of_length_le (by rw [← hlen]; exact Nat.le_refl _)
    rw [initIfaces, hall, List.map_nil, List.append_nil]
  | cons iface rest ih =>
    rw [List.length_cons] at hlen
    have hi : i < fds.length := by omega
    rcases k.readIfaceInfo_cases iface opened with ⟨hr, hno⟩ | ⟨hserves, info, hr, hname, hread⟩
    · exact Or.inl ⟨by rw [initIfaces, hr]; rfl, 0, iface, rfl, hno⟩
    · have hstep : k.initIfaces (iface :: rest) i fds opened =
          (k.initIfaces rest (i + 1) (fds.set i ⟨info.fd, true, false⟩) (k.openedAfter 1 opened)) >>= fun r =>
            .ok (info :: r.1, r.2) := by
        rw [initIfaces, hr]
        show (if i < fds.length then _ else _) = _
        rw [if_pos hi]
        rfl
      rw [hstep]
      rcases ih (i := i + 1) (fds.set i ⟨info.fd, true, false⟩) (k.openedAfter 1 opened)
          (by rw [List.length_set]; omega) with ⟨hrest, n, x, hx, hno⟩ | ⟨hall, infos, hrest, hnames, hreads, hnd⟩
      · exact Or.inl ⟨by rw [hrest]; rfl, n + 1, x, hx, hno⟩
      · refine Or.inr ⟨fun n x hx => ?_, info :: infos, ?_, ?_, fun n x hx => ?_, ?_⟩
        · cases n with
          | zero =>
            cases hx
            exact hserves
          | succ n => exact hall n x hx
        · rw [hrest]
          show Except.ok _ = Except.ok _
          rw [List.take_succ_eq_append_getElem (by rwa [List.length_set]), List.getElem_set_self,
            List.take_set_of_le (Nat.le_refl _), List.append_assoc]
          rfl
        · rw [List.map_cons, List.map_cons, hname, hnames]
        · cases n with
          | zero =>
            cases hx
            exact hread
          | succ n => exact hreads n x hx
        · rw [List.map_cons]
          refine List.nodup_cons.mpr ⟨fun hm => ?_, hnd⟩
          obtain ⟨x, hx, he⟩ := List.mem_map.mp hm
          obtain ⟨n, hn⟩ := List.mem_iff_getElem?.mp hx
          exact (k.socket_new _ _ _ (hreads n x hn).fd).2 (mem_openedAfter n (he ▸ hread.mem_opened))

end Kernel

theorem fdToIface_of_nodup {ifaces : List IfaceInfo} (hnd : (ifaces.map (·.fd)).Nodup) {i : IfaceInfo}
    (hi : i ∈ ifaces) : fdToIface i.fd ifaces = some i := by
  induction ifaces with
  | nil => cases hi
  | cons x rest ih =>
    obtain ⟨hx, hnd⟩ := List.nodup_cons.mp hnd
    rw [fdToIface]
    rcases List.mem_cons.mp hi with rfl | hi
    · rw [if_pos rfl]
    · have hne : x.fd ≠ i.fd := fun he => hx (List.mem_map.mpr ⟨i, hi, he.symm⟩)
      rw [if_neg hne, ih hnd hi]

theorem fdToIface_some {ifaces : List IfaceInfo} {fd : Int} {i : IfaceInfo}
    (h : fdToIface fd ifaces = some i) : i ∈ ifaces ∧ i.fd = fd := by
  induction ifaces with
  | nil => cases h
  | cons x rest ih =>
    rw [fdToIface] at h
    split_ifs at h with hx
    · obtain rfl := Option.some.inj h
      exact ⟨List.mem_cons_self, hx⟩
    · exact ⟨List.mem_cons_of_mem x (ih h).1, (ih h).2⟩

/-- How `init_all_ifaces` ends. -/
theorem initAllIfaces_cases (k : Kernel) (addrs : Option (List IfAddrs)) (opened : List Int) :
    (k.initAllIfaces addrs opened = .error .exit ∧ (ethNames (addrs.getD []) = [] ∨
        ¬ k.LacksMemory (ethNames (addrs.getD [])) ∧ ∃ n name, (ethNames (addrs.getD []))[n]? = some name ∧
          ¬ k.Serves (k.openedAfter n opened) name)) ∨
      ethNames (addrs.getD []) ≠ [] ∧
        (k.LacksMemory (ethNames (addrs.getD [])) ∧
            k.initAllIfaces addrs opened = .error (.fault .outOfBounds) ∨
          ¬ k.LacksMemory (ethNames (addrs.getD [])) ∧
            (∀ n name, (ethNames (addrs.getD []))[n]? = some name → k.Serves (k.openedAfter n opened) name) ∧
            ∃ u, k.initAllIfaces addrs opened = .ok u ∧ Served k opened u ∧
              u.ifaceList.map (·.name) = ethNames (addrs.getD [])) := by
  rcases k.setUp_cases addrs opened with ⟨hnil, h⟩ | ⟨hne, ⟨hlack, h⟩ | ⟨hfit, h⟩⟩
  · exact Or.inl ⟨h, Or.inl hnil⟩
  · exact Or.inr ⟨hne, Or.inl ⟨hlack, h⟩⟩
  generalize ethNames (addrs.getD []) = names at hne hfit h ⊢
  have hat : ∀ (n : Nat) (iface : IfaceInfo), (names.map fun x => (⟨x, 0, 0, zeroMac, 0, 0⟩ : IfaceInfo))[n]? =
      some iface → names[n]? = some iface.name := by
    intro n iface hn
    rw [List.getElem?_map] at hn
    obtain ⟨x, hx, rfl⟩ := Option.map_eq_some_iff.mp hn
    exact hx
  rw [h]
  rcases k.initIfaces_cases (names.map fun x => ⟨x, 0, 0, zeroMac, 0, 0⟩) (i := 0)
      (List.replicate names.length ⟨0, false, false⟩) opened (by simp) with
    ⟨hr, n, iface, hn, hno⟩ | ⟨hall, infos, hr, hmap, hreads, hnd⟩
  · rw [hr]
    exact Or.inl ⟨rfl, Or.inr ⟨hfit, n, iface.name, hat n iface hn, hno⟩⟩
  · have heth : infos.map (·.name) = names := by
      rw [hmap, List.map_map]
      exact List.map_id _
    have hnew : ∀ i ∈ infos, 0 ≤ i.fd ∧ i.fd ∉ opened ∧ fdToIface i.fd infos = some i := by
      intro i hi
      obtain ⟨n, hn⟩ := List.mem_iff_getElem?.mp hi
      obtain ⟨h0, hfresh⟩ := k.socket_new _ _ _ (hreads n i hn).fd
      exact ⟨h0, fun ho => hfresh (Kernel.mem_openedAfter n ho), fdToIface_of_nodup hnd hi⟩
    rw [hr]
    refine Or.inr ⟨hne, Or.inr ⟨hfit, fun n name hn => ?_, _, rfl, ⟨?_, ?_, rfl, hnd, hreads, hnew⟩, heth⟩⟩
    · exact hall n ⟨name, 0, 0, zeroMac, 0, 0⟩ (by rw [List.getElem?_map, hn]; rfl)
    · rintro rfl
      exact hne heth.symm
    · show names.length = _
      rw [← heth, List.length_map]

theorem served_of_ok {k : Kernel} {addrs : Option (List IfAddrs)} {opened : List Int} {u : UStack}
    (hu : k.initAllIfaces addrs opened = .ok u) : Served k opened u := by
  rcases initAllIfaces_cases k addrs opened with ⟨he, -⟩ | ⟨-, ⟨-, he⟩ | ⟨-, -, u', hu', hs, -⟩⟩
  · rw [hu] at he
    cases he
  · rw [hu] at he
    cases he
  · rw [hu] at hu'
    exact Except.ok.inj hu' ▸ hs

/-- **Setting the interfaces up.** `init_all_ifaces` takes the packet interfaces with `-eth` in their names, in
the order of `getifaddrs`. If it returns, each has a descriptor of its own, which was not in use, an address and
a mask; the array for `poll` has as many entries as there are interfaces, one for each in their order; and
`fd_to_iface` finds each one by its descriptor. If there are interfaces, it goes outside of memory exactly when
one of its allocations fails or the names do not fit the 1024 bytes in which it lists them. It exits exactly when
there is no such interface, as after a failure of `getifaddrs`, or else, with memory for all of them, one of them
cannot be read when its turn comes. -/
theorem initAllIfaces_spec (k : Kernel) (addrs : Option (List IfAddrs)) (opened : List Int) :
    (∀ u, k.initAllIfaces addrs opened = .ok u →
        Served k opened u ∧ u.ifaceList.map (·.name) = ethNames (addrs.getD [])) ∧
      ((∃ f, k.initAllIfaces addrs opened = .error (.fault f)) ↔
        ethNames (addrs.getD []) ≠ [] ∧ k.LacksMemory (ethNames (addrs.getD []))) ∧
      (k.initAllIfaces addrs opened = .error .exit ↔
        ethNames (addrs.getD []) = [] ∨ ¬ k.LacksMemory (ethNames (addrs.getD [])) ∧
          ∃ n name, (ethNames (addrs.getD []))[n]? = some name ∧ ¬ k.Serves (k.openedAfter n opened) name) := by
  rcases initAllIfaces_cases k addrs opened with ⟨h, hwhy⟩ | ⟨hne, ⟨hlack, h⟩ | ⟨hfit, hall, u, h, hserved, hnames⟩⟩
  · refine ⟨fun u hu => ?_, ⟨?_, ?_⟩, fun _ => hwhy, fun _ => h⟩
    · rw [h] at hu
      cases hu
    · rintro ⟨f, hf⟩
      rw [h] at hf
      cases hf
    · rintro ⟨hne, hlack⟩
      rcases hwhy with hnil | ⟨hfit, -⟩
      · exact absurd hnil hne
      · exact absurd hlack hfit
  · refine ⟨fun u hu => ?_, ⟨fun _ => ⟨hne, hlack⟩, fun _ => ⟨_, h⟩⟩, fun he => ?_, ?_⟩
    · rw [h] at hu
      cases hu
    · rw [h] at he
      cases he
    · rintro (hnil | ⟨hfit, -⟩)
      · exact absurd hnil hne
      · exact absurd hlack hfit
  · refine ⟨fun u' hu' => ?_, ⟨?_, fun ⟨_, hlack⟩ => absurd hlack hfit⟩, fun he => ?_, ?_⟩
    · rw [h] at hu'
      exact Except.ok.inj hu' ▸ ⟨hserved, hnames⟩
    · rintro ⟨f, hf⟩
      rw [h] at hf
      cases hf
    · rw [h] at he
      cases he
    · rintro (hnil | ⟨-, n, name, hn, hno⟩)
      · exact absurd hnil hne
      · exact absurd (hall n name hn) hno

end StaticRouter
