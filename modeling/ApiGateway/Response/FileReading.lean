import ApiGateway.Response.Framing

/-!
# Reading a file piece by piece

A file is sent while it is read: its size is taken first, then pieces are read until that many
bytes have been sent, or until nothing more can be read.  Whether more follows a piece is told from
the number of bytes that remain.  An empty chunk of its own ends a body that has not ended with a
piece.

Main definitions:

- `Native.readMessages`: the chunks of a file, from what is left of it.
-/

namespace ApiGateway
namespace Native

/--
The chunks that are sent while a file of that size is read, when so many bytes remain to be sent
and the rest of the file is left to be read.
-/
def readMessages (size remaining : Nat) (left : Bytes) : List Message :=
  let piece := left.take (min remaining fileChunkSize)
  if remaining = 0 then
    if size = 0 then [.body [] false] else []
  else if piece.length = 0 then
    [.body [] false]
  else
    .body piece (decide (0 < remaining - piece.length)) ::
      readMessages size (remaining - piece.length) (left.drop piece.length)
termination_by remaining
decreasing_by
  rename_i hremaining hpiece
  exact Nat.sub_lt (Nat.pos_of_ne_zero hremaining) (Nat.pos_of_ne_zero hpiece)

end Native
end ApiGateway
