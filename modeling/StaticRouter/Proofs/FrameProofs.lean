import StaticRouter.Proofs.StoreProofs
import StaticRouter.Teardown

/-!
# Proofs: the actions of `handle_packet`
-/

namespace StaticRouter

open CMem

variable {rtable : List RtEntry} {iface : Iface} {packet : Frame}

theorem ttlOf_eq {ttl : UInt8} (h : packet.readU8 ipTtl = .ok ttl) : ttlOf packet = ttl :=
  (Buffer.readU8_ok.mp h).2.symm

/-- What is submitted goes to the next hop. -/
theorem Submission.nextHop {out : Iface} {dst : UInt32} {q : Frame}
    (h : Submission rtable iface packet out dst q) : nextHop rtable iface packet = some (out, dst) := by
  unfold StaticRouter.nextHop
  cases h with
  | forward ht h2 hd hr hq =>
    rw [if_neg (by rw [ttlOf_eq ht, not_or]; exact ⟨hd, by omega⟩), hr, forwardedPacket_destOf hq]
  | reply ht hr hq =>
    rw [hr]
    cases ht with
    | toIface hd => rw [if_pos (Or.inl hd)]; rfl
    | exceeded hd ht h1 => rw [if_pos (Or.inr (by rw [ttlOf_eq ht]; exact h1))]; rfl
    | unrouted hd hn =>
      rw [hn]
      split_ifs <;> rfl

/-- Notes about messages are made one by one. -/
theorem Path.notes {G : Act → Store → Prop} {dst : UInt32} {notes : List Event}
    (hn : ∀ e ∈ notes, ∃ type code, e = .originated type code dst)
    (hg : ∀ type code st, G (.originate type code dst) st) (s : Router) (ph : Option Nat) :
    Path G ⟨s, ph⟩ ⟨{ s with trace := s.trace ++ notes }, ph⟩ := by
  induction notes generalizing s with
  | nil => rw [List.append_nil]; exact .refl _
  | cons e notes ih =>
    obtain ⟨type, code, rfl⟩ := hn e (by simp)
    refine (Path.single (.originate type code dst) (hg type code _) (.originate s ph type code dst)).trans ?_
    have h := ih (fun e he => hn e (by simp [he])) (s.log (.originated type code dst))
    simpa [Router.log] using h

/-- `handle_packet` makes the actions of a frame. -/
theorem handlePacket_path {s s' : Router} (h : handlePacket rtable iface packet s = .ok s') :
    Path (FrameAct rtable s iface packet) ⟨s, none⟩ ⟨s', none⟩ := by
  rcases handlePacket_cases h with rfl | ⟨hip, out, dst, q, env, notes, hsub, hn, h⟩ | ⟨harp, h⟩
  · exact .refl _
  · have hnotes : Path (FrameAct rtable s iface packet) ⟨{ s with env := env }, none⟩
        ⟨{ s with env := env, trace := s.trace ++ notes }, none⟩ :=
      .notes hn (fun _ _ _ => ⟨hip, out, hsub.nextHop⟩) _ _
    refine (Path.single .env trivial (.env s none env)).trans (hnotes.trans ?_)
    exact .single (.submit out dst q) ⟨hip, hsub, rfl, rfl, rfl⟩ (.submit none h)
  · obtain ⟨ea, s₁, hea, h₁, rfl⟩ := handleArpPacket_cases h
    obtain ⟨-, -, hspa, hsha⟩ := readEtherArp_ok.mp hea
    refine .trans (.single (.learn ea.spa ea.sha) ⟨harp, hspa, hsha⟩ (.learn h₁)) ?_
    split_ifs
    · rcases arpSendReply_cases iface ea s₁ with he | ⟨sha', he⟩
      · rw [he]; exact .refl _
      · rw [he]
        refine .single _ ?_ (.arp s₁ none iface _)
        exact ⟨harp, rfl, _, _, _, _, _, rfl⟩
    · exact .refl _

end StaticRouter
