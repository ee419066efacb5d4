import SessionManager.Demo.Messages
import SessionManager.Library.Dropping

namespace session_manager.loop

inductive APIProvider
  | ANTHROPIC
  | BEDROCK
  | VERTEX
deriving DecidableEq, Repr

namespace Message

/-- What the loop over the messages looks at: a message of the user whose
content is a list. -/
def turn (message : Message) : Bool :=
  message.role.isUser && match message.content with
    | .text _ => false
    | .blocks _ => true

/-- Sets or deletes `content[-1]["cache_control"]`; `none` is the `IndexError`
of an empty content. -/
def set_cache_control (message : Message) (cache_control : Bool) : Option Message :=
  message.blocks.getLast?.map fun block =>
    { message with content := .blocks (message.blocks.dropLast ++ [{ block with cache_control }]) }

end Message

/-- The loop over `reversed(messages)`. -/
def inject_reversed : Nat → List Message → Option (List Message)
  | _, [] => some []
  | breakpoints_remaining, message :: messages =>
    if message.turn then
      match breakpoints_remaining with
      | remaining + 1 => do
        let message ← message.set_cache_control true
        let messages ← inject_reversed remaining messages
        return message :: messages
      | 0 => do
        let message ← message.set_cache_control false
        -- the `break`: the older messages are left as they are
        return message :: messages
    else do
      let messages ← inject_reversed breakpoints_remaining messages
      return message :: messages

def _inject_prompt_caching (messages : List Message) : Option (List Message) :=
  (inject_reversed 3 messages.reverse).map List.reverse

def ResultBlock.image? : ResultBlock → Bool
  | .text _ => false
  | .image _ => true

/-- The loop over the content of one tool result. -/
def remove_images : Int → List ResultBlock → Int × List ResultBlock
  | images_to_remove, [] => (images_to_remove, [])
  | images_to_remove, content :: rest =>
    if content.image? ∧ images_to_remove > 0 then remove_images (images_to_remove - 1) rest
    else
      let (images_to_remove, rest) := remove_images images_to_remove rest
      (images_to_remove, content :: rest)

def Block.image_count (block : Block) : Nat :=
  match block.param with
  | .tool_result _ (.blocks content) _ => content.countP ResultBlock.image?
  | _ => 0

def Block.remove_images (images_to_remove : Int) (block : Block) : Int × Block :=
  match block.param with
  | .tool_result tool_use_id (.blocks content) is_error =>
    let (images_to_remove, new_content) := loop.remove_images images_to_remove content
    (images_to_remove, { block with param := .tool_result tool_use_id (.blocks new_content) is_error })
  | _ => (images_to_remove, block)

def Message.remove_images (images_to_remove : Int) (message : Message) : Int × Message :=
  match message.content with
  | .text _ => (images_to_remove, message)
  | .blocks blocks =>
    let (images_to_remove, blocks) := Pile.thread Block.remove_images images_to_remove blocks
    (images_to_remove, { message with content := .blocks blocks })

def Message.image_count (message : Message) : Nat :=
  message.blocks.foldr (fun block n => block.image_count + n) 0

def _maybe_filter_to_n_most_recent_images (messages : List Message) (images_to_keep : Nat)
    (min_removal_threshold : Nat) : List Message :=
  let total_images : Nat := messages.foldr (fun message n => message.image_count + n) 0
  let images_to_remove : Int := total_images - images_to_keep
  let images_to_remove := images_to_remove - images_to_remove % min_removal_threshold
  (Pile.thread Message.remove_images images_to_remove messages).2

/-- What an iteration of `sampling_loop` does to the messages before its request. -/
def prepare (provider : APIProvider) (only_n_most_recent_images : Nat) (messages : List Message) :
    Option (List Message) :=
  let image_truncation_threshold := only_n_most_recent_images
  match provider with
  | .ANTHROPIC => _inject_prompt_caching messages
  | .BEDROCK | .VERTEX =>
    if only_n_most_recent_images ≠ 0 then
      some (_maybe_filter_to_n_most_recent_images messages only_n_most_recent_images
        image_truncation_threshold)
    else some messages

end session_manager.loop
