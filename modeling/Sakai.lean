import Sakai.Readers
import Sakai.Cpu.Groups
import Sakai.Cpu.Decode
import Sakai.Memory.NumaStat
import Sakai.Io.Stat
import Sakai.Rdma
import Sakai.Io.Weight
import Sakai.Notification.Watcher
import Sakai.Notification.Poller
import Sakai.Cpuset.List
import Sakai.Cpuset.Partition
import Sakai.Hugetlb.PageSize
import Sakai.Hugetlb.NumaStat
import Sakai.Pressure
import Sakai.Spelling
import Sakai.Path
import Sakai.Handle.Open
import Sakai.Handle.Discovery
import Sakai.Cpu.Max
import Sakai.Core.Task
import Sakai.Retain.Readers
import Sakai.Lines
import Sakai.Fields
import Sakai.Times
import Sakai.Named
import Sakai.Handle.Children
import Sakai.Handle.File
import Sakai.Release
import Sakai.Notification.Configuration
import Sakai.Python.Monitor
import Sakai.Vmtest.Kernel
import Sakai.Handle.Navigate
import Sakai.Handle.Interface
import Sakai.Release.Notes
import Sakai.Release.Candidate
import Sakai.Release.Announce
import Sakai.Handle.Listing
import Sakai.Io.Cost
import Sakai.Notification.Registration
