/-
A mailbox: messages handed over in the order in which they were posted.

The mailbox keeps who posted what, and it keeps the messages it has handed over.  What
was posted after some moment is then a part of its history, and a message handed over
after that moment was posted after it unless its sender had one waiting.
-/

set_option autoImplicit false

namespace Posting

structure Mailbox (Sender Message : Type) : Type where
  delivered : List (Sender × Message)
  waiting : List (Sender × Message)

variable {Sender Message : Type}

namespace Mailbox

def empty : Mailbox Sender Message := { delivered := [], waiting := [] }

def post (mailbox : Mailbox Sender Message) (sender : Sender) (message : Message) :
    Mailbox Sender Message :=
  { mailbox with waiting := mailbox.waiting ++ [(sender, message)] }

/-- The message that waits longest and the mailbox without it. -/
def deliver (mailbox : Mailbox Sender Message) : Option (Message × Mailbox Sender Message) :=
  match mailbox.waiting with
  | [] => none
  | (sender, message) :: rest =>
      some (message, { delivered := mailbox.delivered ++ [(sender, message)], waiting := rest })

def history (mailbox : Mailbox Sender Message) : List (Sender × Message) :=
  mailbox.delivered ++ mailbox.waiting

def latest (mailbox : Mailbox Sender Message) : Option Message :=
  mailbox.delivered.getLast?.map Prod.snd

variable {mailbox later : Mailbox Sender Message} {sender : Sender} {message : Message}

@[simp] theorem history_post :
    (mailbox.post sender message).history = mailbox.history ++ [(sender, message)] := by
  simp only [history, post, List.append_assoc]

@[simp] theorem delivered_post :
    (mailbox.post sender message).delivered = mailbox.delivered := rfl

theorem deliver_eq_some (taken : mailbox.deliver = some (message, later)) :
    ∃ sender, mailbox.waiting = (sender, message) :: later.waiting ∧
      later.delivered = mailbox.delivered ++ [(sender, message)] := by
  unfold deliver at taken
  split at taken
  · cases taken
  · rename_i sender oldest rest waits
    cases taken
    exact ⟨sender, waits, rfl⟩

theorem history_deliver (taken : mailbox.deliver = some (message, later)) :
    later.history = mailbox.history := by
  obtain ⟨sender, waits, delivered⟩ := deliver_eq_some taken
  rw [history, history, delivered, waits, List.append_assoc]
  rfl

theorem latest_deliver (taken : mailbox.deliver = some (message, later)) :
    later.latest = some message := by
  obtain ⟨sender, _waits, delivered⟩ := deliver_eq_some taken
  rw [latest, delivered, List.getLast?_concat, Option.map_some]

/-- What of `sender` has been posted since `earlier` is good. -/
def GoodSince (earlier : Mailbox Sender Message) (sender : Sender) (Good : Message → Prop)
    (mailbox : Mailbox Sender Message) : Prop :=
  ∃ since, mailbox.history = earlier.history ++ since ∧
    ∀ message, (sender, message) ∈ since → Good message

variable {earlier : Mailbox Sender Message} {Good : Message → Prop}

theorem GoodSince.refl : GoodSince earlier sender Good earlier := by
  refine ⟨[], (List.append_nil _).symm, ?_⟩
  intro message member
  cases member

theorem GoodSince.post {poster : Sender} (good : GoodSince earlier sender Good mailbox)
    (posted : poster = sender → Good message) :
    GoodSince earlier sender Good (mailbox.post poster message) := by
  obtain ⟨since, grown, every⟩ := good
  refine ⟨since ++ [(poster, message)], ?_, ?_⟩
  · rw [history_post, grown, List.append_assoc]
  · intro other member
    rcases List.mem_append.mp member with before | last
    · exact every other before
    · obtain ⟨rfl, rfl⟩ := Prod.mk.inj (List.mem_singleton.mp last)
      exact posted rfl

theorem GoodSince.deliver (good : GoodSince earlier sender Good mailbox)
    (taken : mailbox.deliver = some (message, later)) :
    GoodSince earlier sender Good later := by
  obtain ⟨since, grown, every⟩ := good
  exact ⟨since, (history_deliver taken).trans grown, every⟩

/-- A message of a sender that had none waiting was posted since, where it was handed over
since. -/
theorem GoodSince.of_delivered {more : List (Sender × Message)}
    (good : GoodSince earlier sender Good mailbox)
    (delivered : mailbox.delivered = earlier.delivered ++ more ++ [(sender, message)])
    (noneWaiting : ∀ entry ∈ earlier.waiting, entry.1 ≠ sender) : Good message := by
  obtain ⟨since, grown, every⟩ := good
  rw [history, history, delivered, List.append_assoc, List.append_assoc, List.append_assoc,
    List.append_cancel_left_eq] at grown
  have member : (sender, message) ∈ earlier.waiting ++ since := by
    rw [← grown]
    exact List.mem_append_right _ (List.mem_append_left _ (List.mem_singleton.mpr rfl))
  rcases List.mem_append.mp member with waited | posted
  · exact absurd rfl (noneWaiting _ waited)
  · exact every message posted

end Mailbox

end Posting
