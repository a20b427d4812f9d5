import Coordination.Proofs.Remote.Ledger

/-! What has been done on a connection so far, and what may follow. -/

namespace Coordination

open Client (IsAnswer)

namespace Deed

theorem hello_ne_invoke (version : UInt32) (clientId : String) (call : Call) :
    Frame.write (.hello version clientId) ≠ Frame.write call.message := by
  intro same
  have bodies := (List.append_inj same (by simp)).2
  -- the lengths of the two names stand in the second byte
  have hello : MessagePack.textHead (.ofNat (Bytes.ofString "Hello").length) = [0xa5] := by decide
  have invoke : MessagePack.textHead (.ofNat (Bytes.ofString "Invoke").length) = [0xa6] := by decide
  simp [Message.bytes, Message.packed, Call.message, MessagePack.bytes, MessagePack.memberBytes,
    MessagePack.textBytes, MessagePack.mapHead, hello, invoke] at bodies

theorem not_invokes_idle (placed : Option Placed) (outcome : Option Outcome) :
    ¬ Invokes ⟨placed, [], outcome⟩ := nofun

theorem not_invokes_greeting (placed : Option Placed) (connection : Nat) (clientId : String)
    (heard : Except String (List Arrival)) (outcome : Option Outcome) :
    ¬ Invokes ⟨placed, [⟨connection, Frame.write (.hello protocolVersion clientId), heard⟩],
      outcome⟩ := by
  rintro ⟨frame, member, call, same⟩
  cases List.mem_singleton.mp member
  exact hello_ne_invoke _ _ call same

variable {connection : Nat} {earlier later : List Deed} {d : Deed} {unread left : List Arrival}

theorem carriedBy_append_one_of_not_touches (untouched : ¬ d.touches connection = true) :
    carriedBy connection (earlier ++ [d]) = carriedBy connection earlier := by
  simp [carriedBy, untouched]

theorem carriedBy_append_one_of_touches (touched : d.touches connection = true) :
    carriedBy connection (earlier ++ [d]) = carriedBy connection earlier ++ [d] := by
  simp [carriedBy, touched]

theorem touches_one {number : Nat} {placed : Option Placed} {bytes : Bytes}
    {heard : Except String (List Arrival)} {outcome : Option Outcome} :
    touches ⟨placed, [⟨number, bytes, heard⟩], outcome⟩ connection = true ↔ connection = number := by
  simp only [touches, List.any_cons, List.any_nil, Bool.or_false, beq_iff_eq]
  exact eq_comm

theorem InStep.exists_touches (inStep : InStep connection (carriedBy connection earlier) unread) :
    ∃ d ∈ earlier, d.touches connection = true := by
  generalize whole : carriedBy connection earlier = deeds at inStep
  have nonempty : deeds ≠ [] := by
    cases inStep with
    | greeted => exact List.cons_ne_nil _ _
    | completed => simp
  obtain ⟨d, member⟩ := List.exists_mem_of_ne_nil deeds nonempty
  rw [← whole] at member
  exact ⟨d, List.mem_filter.mp member⟩

/-- In a connection's past, each call that was sent got its own reply. -/
theorem InStep.completes_of_invokes
    (inStep : InStep connection (earlier ++ d :: later) unread) (invokes : d.Invokes) :
    ∃ before left outcome, InStep connection earlier before ∧
      Completes connection before d outcome left ∧ Client.reusable outcome = true := by
  generalize whole : earlier ++ d :: later = deeds at inStep
  -- a history grows at its end, so the deed is the last one or stands in the shorter history
  induction inStep generalizing later with
  | greeted read =>
      cases earlier with
      | nil =>
          rw [(List.cons.inj whole).1] at invokes
          exact absurd invokes (not_invokes_greeting _ _ _ _ _)
      | cons first earlier => simp at whole
  | completed inStep completes reusable induction =>
      obtain rfl | ⟨middle, last, rfl⟩ := List.eq_nil_or_concat later
      · obtain ⟨rfl, same⟩ := List.append_inj' whole rfl
        cases same
        exact ⟨_, _, _, inStep, completes, reusable⟩
      · rw [List.concat_eq_append, ← List.cons_append, ← List.append_assoc] at whole
        obtain ⟨shorter, -⟩ := List.append_inj' whole rfl
        exact induction shorter

/-- What may be done after these deeds. -/
inductive Follows (earlier : List Deed) : Deed → Prop where
  | idle {placed : Option Placed} {outcome : Option Outcome}
      (unanswered : ∀ o, outcome = some o → ¬ IsAnswer o) : Follows earlier ⟨placed, [], outcome⟩
  | greeting {placed : Option Placed} {connection : Nat} {clientId : String}
      {heard : Except String (List Arrival)} {outcome : Option Outcome}
      (fresh : carriedBy connection earlier = []) (unanswered : ∀ o, outcome = some o → ¬ IsAnswer o) :
      Follows earlier
        ⟨placed, [⟨connection, Frame.write (.hello protocolVersion clientId), heard⟩], outcome⟩
  | exchange {placed : Placed} {connection : Nat} {unread : List Arrival}
      {heard : Except String (List Arrival)} {outcome : Option Outcome}
      (inStep : InStep connection (carriedBy connection earlier) unread)
      (answered : ∀ o, outcome = some o → IsAnswer o → ∃ left,
        Completes connection unread (Ledger.sending placed connection heard outcome) o left) :
      Follows earlier (Ledger.sending placed connection heard outcome)

/-- Each deed stands in this relation to those before it. -/
def Each (R : List Deed → Deed → Prop) (deeds : List Deed) : Prop :=
  ∀ earlier d later, deeds = earlier ++ d :: later → R earlier d

theorem each_append_one {R : List Deed → Deed → Prop} {deeds : List Deed} (each : Each R deeds)
    (last : R deeds d) : Each R (deeds ++ [d]) := by
  intro earlier e later whole
  obtain rfl | ⟨middle, f, rfl⟩ := List.eq_nil_or_concat later
  · obtain ⟨rfl, same⟩ := List.append_inj' whole rfl
    cases same
    exact last
  · rw [List.concat_eq_append, ← List.cons_append, ← List.append_assoc] at whole
    obtain ⟨shorter, -⟩ := List.append_inj' whole rfl
    exact each _ _ _ shorter

end Deed

end Coordination
