import Coordination.Board.Work

/-! Work done through a handle in one go is what the handle itself does. -/

namespace Coordination.Work

variable {ω α β : Type} (h : Handle ω)

theorem run_andThen (work : Work α) (rest : Except Fault α → Work β) :
    ((work.andThen rest).run h).run =
      (work.run h).run >>= fun result => ((rest result).run h).run := by
  induction work with
  | ended result => rfl
  | operate operation next induction =>
      change (operation.perform h).run >>= (fun answer =>
        (((next answer).andThen rest).run h).run) = _
      simp only [induction, run, ExceptT.run_mk, bind_assoc]

theorem run_giveBack (lock : String) (result : Except Fault α) :
    ((giveBack lock result).run h).run =
      (h.unlock lock).run >>= fun unlocked =>
        pure (settled result ((fun _ => .done) <$> unlocked)) := by
  change ((fun _ => Answer.done) <$> h.unlock lock).run >>= _ = _
  rw [ExceptT.run_map, bind_map_left]
  rfl

theorem run_withLock (lock : String) (body : Work α) :
    (withLock lock body).run h = h.withLock lock (body.run h) := by
  apply ExceptT.ext
  change ((fun _ => Answer.done) <$> h.lock lock).run >>= _ = _
  rw [Handle.withLock, ExceptT.run_bind, ExceptT.run_map, bind_map_left]
  refine congrArg (bind _) (funext fun taken => ?_)
  cases taken with
  | error fault => rfl
  | ok _ =>
      change ((body.andThen (giveBack lock)).run h).run = _
      simp only [run_andThen, run_giveBack, ExceptT.run_bind, ExceptT.run_lift, bind_map_left]
      refine congrArg (bind _) (funext fun result => ?_)
      refine congrArg (bind _) (funext fun unlocked => ?_)
      cases result <;> cases unlocked <;> rfl

theorem run_put (key value : Json) :
    (operate (.put key value) fun put => .ended ((fun _ => ()) <$> put)).run h =
      h.put key value := by
  apply ExceptT.ext
  change ((fun _ => Answer.done) <$> h.put key value).run >>= _ = _
  rw [ExceptT.run_map, bind_map_left]
  refine Eq.trans ?_ (bind_pure (h.put key value).run)
  refine congrArg (bind _) (funext fun put => ?_)
  cases put <;> rfl

theorem run_countUp (key : Json) :
    (countUp key).run h = (do
      let n ← h.get Json.Decoder.int64 key
      h.put key (Host.intJson (n.getD 0 + 1))) := by
  apply ExceptT.ext
  change (Answer.found <$> h.get Json.Decoder.json key).run >>= _ = _
  simp only [Handle.get, ExceptT.run_map, ExceptT.run_bind, bind_map_left, bind_assoc]
  refine congrArg (bind _) (funext fun reply => ?_)
  rcases reply with fault | ⟨found, value⟩
  · rfl
  · cases found with
    | false => exact congrArg ExceptT.run (run_put h key _)
    | true =>
        have read : Handle.decoded Json.Decoder.json value = .ok value := rfl
        have shown : Except.map Answer.found (.ok (some value)) >>= shownNumber =
            Handle.decoded Json.Decoder.int64 value := rfl
        simp only [if_true, read, ExceptT.run_pure, pure_bind, putNext, shown]
        cases Handle.decoded Json.Decoder.int64 value with
        | error fault => rfl
        | ok n => exact congrArg ExceptT.run (run_put h key _)

end Coordination.Work
